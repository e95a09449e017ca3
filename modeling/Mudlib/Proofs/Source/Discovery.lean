import Mudlib.Proofs.Definition.Path
import Mudlib.Proofs.Source.Tree
import Mudlib.Source.Files
/-!
Which definitions are found below a source root, and which of them can be loaded.

A definition is found by every file whose path spells its id in some case of letters, and loaded
from the one file whose path is the id. So the two agree exactly where all files that spell ids
spell them in lower case.
-/
set_option autoImplicit false

namespace Mudlib.Source

def pathText (parts : List String) : String :=
  String.ofList (parts.flatMap fun part => '/' :: part.toList)

/-- The path of a source file reads as this text, apart from the extension. -/
def Reads (path : List String) (text : String) : Prop :=
  ∃ dirs stem, stem ≠ "" ∧ path = dirs ++ [stem ++ ".toml"] ∧ text = pathText (dirs ++ [stem])

/-- The path of a source file is an id, in some case of letters. -/
def Spells (path : List String) (id : DefinitionId) : Prop :=
  ∃ text, Reads path text ∧ Text.lowercase text = id.text

variable {path parts dirs : List String} {name stem text : String} {id : DefinitionId}
variable {root : FileTree} {content : ByteArray}

theorem toList_sourceName (stem : String) : (stem ++ ".toml").toList = stem.toList ++ extension := by
  rw [String.toList_append]
  rfl

theorem stem?_eq_some_iff : stem? name = some stem ↔ stem ≠ "" ∧ name = stem ++ ".toml" := by
  constructor
  · intro h
    simp only [stem?, Bool.and_eq_true, decide_eq_true_eq, Option.ite_none_right_eq_some,
      Option.some.injEq] at h
    obtain ⟨⟨hcut, hdrop⟩, rfl⟩ := h
    constructor
    · intro hempty
      have hlength := congrArg List.length (congrArg String.toList hempty)
      simp only [String.toList_ofList, List.length_take, String.toList_empty,
        List.length_nil] at hlength
      omega
    · rw [← String.toList_inj, toList_sourceName, String.toList_ofList]
      exact (List.take_append_drop _ name.toList).symm.trans (by rw [hdrop])
  · rintro ⟨hne, rfl⟩
    have hcut : (stem.toList ++ extension).length - extension.length = stem.toList.length := by
      rw [List.length_append, Nat.add_sub_cancel]
    have hpos : 0 < stem.toList.length := by
      rw [List.length_pos_iff]
      exact fun hnil => hne (String.toList_eq_nil_iff.mp hnil)
    simp only [stem?, toList_sourceName, hcut, List.drop_left, List.take_left, hpos, decide_true,
      Bool.and_self, if_true, String.ofList_toList]

theorem segments?_eq_some_iff : segments? path = some parts ↔
    ∃ dirs stem, stem ≠ "" ∧ path = dirs ++ [stem ++ ".toml"] ∧ parts = dirs ++ [stem] := by
  induction path generalizing parts with
  | nil => simp [segments?]
  | cons name path ih =>
    cases path with
    | nil =>
      simp only [segments?, Option.map_eq_some_iff, stem?_eq_some_iff]
      constructor
      · rintro ⟨stem, ⟨hne, rfl⟩, rfl⟩
        exact ⟨[], stem, hne, rfl, rfl⟩
      · rintro ⟨dirs, stem, hne, hpath, rfl⟩
        cases dirs with
        | nil => exact ⟨stem, ⟨hne, List.head_eq_of_cons_eq hpath⟩, rfl⟩
        | cons dir dirs => simp at hpath
    | cons next path =>
      simp only [segments?, Option.map_eq_some_iff, ih]
      constructor
      · rintro ⟨parts, ⟨dirs, stem, hne, hpath, rfl⟩, rfl⟩
        exact ⟨name :: dirs, stem, hne, congrArg (name :: ·) hpath, rfl⟩
      · rintro ⟨dirs, stem, hne, hpath, rfl⟩
        cases dirs with
        | nil => simp at hpath
        | cons dir dirs =>
          obtain ⟨rfl, hrest⟩ := List.cons.inj hpath
          exact ⟨dirs ++ [stem], ⟨dirs, stem, hne, hrest, rfl⟩, rfl⟩

theorem toList_pathText (parts : List String) :
    (pathText parts).toList = (parts.map String.toList).flatMap ('/' :: ·) := by
  rw [pathText, String.toList_ofList, List.flatMap_map]

theorem pathText_eq (hne : parts ≠ []) : pathText parts = "/" ++ "/".intercalate parts := by
  obtain ⟨part, parts, rfl⟩ := List.exists_cons_of_ne_nil hne
  rw [← String.toList_inj, toList_pathText, List.map_cons, DefinitionPath.flatMap_slash,
    String.toList_append, String.toList_intercalate]
  rfl

theorem idOfFile?_eq_some_iff : idOfFile? path = some id ↔ Spells path id := by
  simp only [idOfFile?, Option.bind_eq_some_iff, segments?_eq_some_iff]
  constructor
  · rintro ⟨parts, ⟨dirs, stem, hne, rfl, rfl⟩, hid⟩
    rw [← pathText_eq (by simp)] at hid
    have hok := eq_ok_of_toOption hid
    exact ⟨_, ⟨dirs, stem, hne, rfl, rfl⟩, (DefinitionId.ofPath?_eq_ok_iff.mp hok).2.symm⟩
  · rintro ⟨_, ⟨dirs, stem, hne, rfl, rfl⟩, htext⟩
    refine ⟨_, ⟨dirs, stem, hne, rfl, rfl⟩, ?_⟩
    have hvalid := id.valid
    rw [← htext] at hvalid
    rw [← pathText_eq (by simp), DefinitionId.ofPath?_eq_ok_iff.mpr ⟨hvalid, htext.symm⟩]
    rfl

theorem exists_reads (id : DefinitionId) :
    ∃ path, Reads path id.text ∧ ∀ name ∈ path, '/' ∉ name.toList := by
  obtain ⟨-, segments, hne, htext, hall⟩ := DefinitionPath.fault?_eq_none_iff_isPath.mp id.valid
  obtain rfl | ⟨before, last, rfl⟩ := List.eq_nil_or_concat segments
  · exact absurd rfl hne
  rw [List.concat_eq_append] at htext hall
  obtain ⟨hbefore, hlast⟩ := List.forall_mem_append.mp hall
  have hstem := hlast last (List.mem_singleton_self last)
  refine ⟨before.map String.ofList ++ [String.ofList last ++ ".toml"],
    ⟨before.map String.ofList, String.ofList last, ?_, rfl, ?_⟩, ?_⟩
  · obtain ⟨c, rest, rfl, -⟩ := hstem
    exact fun hempty => nomatch String.ofList_injective hempty
  · rw [← String.toList_inj, toList_pathText, htext]
    simp
  · refine List.forall_mem_append.mpr ⟨fun name hname => ?_, List.forall_mem_singleton.mpr ?_⟩
    · obtain ⟨segment, hsegment, rfl⟩ := List.mem_map.mp hname
      rw [String.toList_ofList]
      exact DefinitionPath.slash_not_mem (hbefore segment hsegment)
    · rw [toList_sourceName, String.toList_ofList, List.mem_append, not_or]
      exact ⟨DefinitionPath.slash_not_mem hstem, by decide⟩

/-- One path without slashes in its parts reads as an id: where the source is looked for. -/
theorem eq_of_reads (h : Reads path id.text) (hcut : ∀ name ∈ path, '/' ∉ name.toList) :
    (id.sourceFile.toList.splitOn '/').map String.ofList = path := by
  obtain ⟨dirs, stem, hne, rfl, htext⟩ := h
  have hparts := congrArg String.toList htext
  rw [toList_pathText] at hparts
  obtain ⟨rest, hrest, -⟩ := DefinitionPath.isPath_iff.mp
    (DefinitionPath.fault?_eq_none_iff_isPath.mp id.valid).2
  have hsource : '/' :: id.sourceFile.toList =
      ((dirs ++ [stem ++ ".toml"]).map String.toList).flatMap ('/' :: ·) := by
    have hfile : id.sourceFile.toList = rest ++ extension := by
      rw [DefinitionId.sourceFile, toList_sourceName, String.toList_ofList, hrest]
      rfl
    rw [hfile, ← List.cons_append, ← hrest, hparts]
    simp [extension]
  have hparted : DefinitionPath.Parted ((dirs ++ [stem ++ ".toml"]).map String.toList)
      ('/' :: id.sourceFile.toList) :=
    ⟨hsource, List.forall_mem_map.mpr hcut⟩
  rw [← DefinitionPath.parted_iff.mp hparted, List.map_map]
  simp

theorem eq_of_reads_at {sub : FileTree} (hroot : root.Proper) (hat : root.at? path = some sub)
    (h : Reads path id.text) : (id.sourceFile.toList.splitOn '/').map String.ofList = path :=
  eq_of_reads h fun name hname => (hroot.isName hat name hname).noSlash

theorem load_eq_none_iff : load root id = .ok none ↔ file? root id = none := by
  unfold load
  split
  next hnone => exact iff_of_true rfl hnone
  next bytes hbytes =>
    refine iff_of_false (fun h => ?_) (by simp [hbytes])
    split at h
    · cases h
    next text _ =>
      cases hparse : parse id text with
      | error e =>
        rw [hparse] at h
        cases h
      | ok d =>
        rw [hparse] at h
        cases h

theorem file?_eq_some_iff : file? root id = some content ↔
    root.at? ((id.sourceFile.toList.splitOn '/').map String.ofList) = some (.file content) := by
  rw [file?, Option.bind_eq_some_iff]
  constructor
  · rintro ⟨tree, hat, hcontent⟩
    cases tree with
    | file content' =>
      cases hcontent
      exact hat
    | dir entries => cases hcontent
  · exact fun hat => ⟨_, hat, rfl⟩

theorem load_ne_none_iff (hroot : root.Proper) : load root id ≠ .ok none ↔
    ∃ path content, root.at? path = some (.file content) ∧ Reads path id.text := by
  rw [Ne, load_eq_none_iff, ← Ne, Option.ne_none_iff_exists']
  simp only [file?_eq_some_iff]
  constructor
  · rintro ⟨content, hat⟩
    obtain ⟨path, hreads, hcut⟩ := exists_reads id
    rw [eq_of_reads hreads hcut] at hat
    exact ⟨path, content, hat, hreads⟩
  · rintro ⟨path, content, hat, hreads⟩
    rw [eq_of_reads_at hroot hat hreads]
    exact ⟨content, hat⟩

/-- All ids that files spell, once for each file. -/
def found (root : FileTree) : List DefinitionId := root.files.filterMap fun f => idOfFile? f.1

theorem exists_discovered (hdir : root.isDir = true) : ∃ ids, discover root = some ids ∧
    ids.Pairwise (fun a b => a.text ≤ b.text) ∧ ids.Perm (found root) := by
  refine ⟨_, if_pos hdir, ?_, List.mergeSort_perm _ _⟩
  refine (List.pairwise_mergeSort ?_ ?_ _).imp fun h => of_decide_eq_true h
  · intro a b c hab hbc
    exact decide_eq_true (String.le_trans (of_decide_eq_true hab) (of_decide_eq_true hbc))
  · intro a b
    simpa using String.le_total a.text b.text

theorem mem_found (hroot : root.Proper) : id ∈ found root ↔
    ∃ path content, root.at? path = some (.file content) ∧ Spells path id := by
  simp only [found, List.mem_filterMap, idOfFile?_eq_some_iff, Prod.exists,
    FileTree.mem_files_iff hroot]

theorem nodup_found_iff (hroot : root.Proper) : (found root).Nodup ↔
    ∀ path path' content content' id, root.at? path = some (.file content) →
      root.at? path' = some (.file content') → Spells path id → Spells path' id → path = path' := by
  rw [found, List.Nodup, List.pairwise_filterMap]
  simp only [idOfFile?_eq_some_iff, ← FileTree.mem_files_iff hroot]
  constructor
  · intro hapart path path' content content' id hmem hmem' hid hid'
    have : Std.Symm fun f g : List String × ByteArray =>
        ∀ b, Spells f.1 b → ∀ b', Spells g.1 b' → b ≠ b' :=
      ⟨fun f g h b hb b' hb' heq => h b' hb' b hb heq.symm⟩
    by_contra hne
    exact hapart.forall hmem hmem' (fun heq => hne (congrArg Prod.fst heq)) id hid id hid' rfl
  · intro hone
    refine (FileTree.pairwise_files root hroot).imp_of_mem ?_
    intro f g hf hg hne id hid id' hid' heq
    rw [← heq] at hid'
    exact hne (hone _ _ _ _ id hf hg hid hid')

theorem ascending_iff_nodup {ids : List DefinitionId}
    (hsorted : ids.Pairwise fun a b => a.text ≤ b.text) : ids.Pairwise (· < ·) ↔ ids.Nodup := by
  constructor
  · intro hascending
    refine hascending.imp fun {a b} hlt heq => ?_
    rw [heq] at hlt
    exact OrderedKey.irrefl b hlt
  · intro hnodup
    refine (hsorted.and hnodup).imp fun {a b} h => ?_
    have hne : a.text ≠ b.text := fun heq => h.2 (DefinitionId.ext heq)
    have hlt : a.text < b.text := Std.lt_of_le_of_ne h.1 hne
    exact hlt

theorem spells_of_reads (h : Reads path id.text) : Spells path id :=
  ⟨id.text, h, Text.lowercase_of_plain (DefinitionPath.isPlain_of_fault?_eq_none id.valid)⟩

/-- **Found and loadable.** Below a root the ids are found, in order, that files spell, and each once
where no two files spell it; all that can be loaded are among them. They are exactly those, each once,
if and only if every file that spells an id has the id for its path, without a capital. -/
theorem discover_finds_spelled (hdir : root.isDir = true) (hroot : root.Proper) :
    ∃ ids, discover root = some ids ∧ ids.Pairwise (fun a b => a.text ≤ b.text) ∧
      (∀ id, id ∈ ids ↔ ∃ path content, root.at? path = some (.file content) ∧ Spells path id) ∧
      (ids.Pairwise (· < ·) ↔ ∀ path path' content content' id,
        root.at? path = some (.file content) → root.at? path' = some (.file content') →
          Spells path id → Spells path' id → path = path') ∧
      (∀ id, load root id ≠ .ok none ↔
        ∃ path content, root.at? path = some (.file content) ∧ Reads path id.text) ∧
      (∀ id, load root id ≠ .ok none → id ∈ ids) ∧
      ((ids.Pairwise (· < ·) ∧ ∀ id, id ∈ ids ↔ load root id ≠ .ok none) ↔
        ∀ path content id, root.at? path = some (.file content) → Spells path id →
          Reads path id.text) := by
  obtain ⟨ids, hids, hsorted, hperm⟩ := exists_discovered hdir
  have hmem : ∀ id, id ∈ ids ↔
      ∃ path content, root.at? path = some (.file content) ∧ Spells path id :=
    fun id => hperm.mem_iff.trans (mem_found hroot)
  have hascending :=
    (ascending_iff_nodup hsorted).trans (hperm.nodup_iff.trans (nodup_found_iff hroot))
  have hload : ∀ id, load root id ≠ .ok none ↔
      ∃ path content, root.at? path = some (.file content) ∧ Reads path id.text :=
    fun _ => load_ne_none_iff hroot
  refine ⟨ids, hids, hsorted, hmem, hascending, hload, fun id hid => ?_, ?_⟩
  · obtain ⟨path, content, hat, hreads⟩ := (hload id).mp hid
    exact (hmem id).mpr ⟨path, content, hat, spells_of_reads hreads⟩
  rw [hascending]
  constructor
  · rintro ⟨hone, hexact⟩ path content id hat hspells
    obtain ⟨path', content', hat', hreads⟩ :=
      (hload id).mp ((hexact id).mp ((hmem id).mpr ⟨path, content, hat, hspells⟩))
    rw [hone path path' content content' id hat hat' hspells (spells_of_reads hreads)]
    exact hreads
  · intro hlower
    refine ⟨fun path path' content content' id hat hat' hspells hspells' => ?_, fun id => ?_⟩
    · rw [← eq_of_reads_at hroot hat (hlower _ _ _ hat hspells),
        ← eq_of_reads_at hroot hat' (hlower _ _ _ hat' hspells')]
    · rw [hmem, hload]
      constructor
      · rintro ⟨path, content, hat, hspells⟩
        exact ⟨path, content, hat, hlower path content id hat hspells⟩
      · rintro ⟨path, content, hat, hreads⟩
        exact ⟨path, content, hat, spells_of_reads hreads⟩

section Rooms

def pantry : DefinitionId := ⟨"/pantry", by decide⟩

def room : DefinitionId := ⟨"/std/room", by decide⟩

def rooms : FileTree :=
  .dir [("notes.txt", .file .empty), ("std", .dir [("room.toml", .file .empty)]),
    ("pantry.toml", .file .empty)]

theorem proper_rooms : rooms.Proper := by
  refine FileTree.proper_dir_iff.mpr ⟨by decide, by decide, ?_⟩
  have hstd : FileTree.Proper (.dir [("room.toml", .file .empty)]) :=
    FileTree.proper_dir_iff.mpr ⟨by decide, by decide,
      List.forall_mem_singleton.mpr (FileTree.proper_file _)⟩
  simp [FileTree.proper_file, hstd]

/-- Both rooms are found, each once, and where their sources are. -/
theorem rooms_found : ∃ ids, discover rooms = some ids ∧ ids.Pairwise (· < ·) ∧
    pantry ∈ ids ∧ room ∈ ids ∧ ∀ id ∈ ids, load rooms id ≠ .ok none := by
  obtain ⟨ids, hids, -, -, -, -, hloaded, hexact⟩ :=
    discover_finds_spelled (rfl : rooms.isDir = true) proper_rooms
  have hlower : ∀ path content id, rooms.at? path = some (.file content) → Spells path id →
      Reads path id.text := by
    intro path content id hat hspells
    rw [← FileTree.mem_files_iff proper_rooms] at hat
    rw [← idOfFile?_eq_some_iff] at hspells
    have hfiles : rooms.files = [(["notes.txt"], .empty), (["std", "room.toml"], .empty),
      (["pantry.toml"], .empty)] := rfl
    simp only [hfiles, List.mem_cons, Prod.mk.injEq, List.not_mem_nil, or_false] at hat
    obtain ⟨rfl, rfl⟩ | ⟨rfl, rfl⟩ | ⟨rfl, rfl⟩ := hat
    · have hnone : idOfFile? ["notes.txt"] = none := by decide +kernel
      rw [hnone] at hspells
      cases hspells
    · have hroom : idOfFile? ["std", "room.toml"] = some room := by decide +kernel
      obtain rfl := Option.some.inj (hroom.symm.trans hspells)
      exact ⟨["std"], "room", by decide, rfl, by decide⟩
    · have hpantry : idOfFile? ["pantry.toml"] = some pantry := by decide +kernel
      obtain rfl := Option.some.inj (hpantry.symm.trans hspells)
      exact ⟨[], "pantry", by decide, rfl, by decide⟩
  obtain ⟨hascending, hsame⟩ := hexact.mpr hlower
  refine ⟨ids, hids, hascending, hloaded _ ?_, hloaded _ ?_, fun id hid => (hsame id).mp hid⟩
  · rw [Ne, load_eq_none_iff]
    exact fun h => nomatch h
  · rw [Ne, load_eq_none_iff]
    exact fun h => nomatch h

def shouted : FileTree := .dir [("Pantry.toml", .file .empty)]

/-- The pantry is found and cannot be loaded. -/
theorem shouted_pantry_not_loaded : shouted.isDir = true ∧ shouted.Proper ∧
    discover shouted = some [pantry] ∧ load shouted pantry = .ok none := by
  refine ⟨rfl, ?_, ?_, ?_⟩
  · refine FileTree.proper_dir_iff.mpr ⟨by decide, by decide, ?_⟩
    exact List.forall_mem_singleton.mpr (FileTree.proper_file _)
  · decide +kernel
  · rfl

end Rooms

end Mudlib.Source
