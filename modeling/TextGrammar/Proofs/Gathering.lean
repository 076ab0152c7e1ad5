import Mathlib
import TextGrammar.Lint.Tool
import TextGrammar.Proofs.Keyed

/-! # Gathering the grammars of a folder

The linter goes through a folder and all folders in it, and lays the grammars that it can load over
each other. What it loads is a fold over the grammar files that lie in the folder, at any depth; a
file that cannot be loaded leaves no trace in it. So the code of a run tells of the faults of what
was loaded and of nothing else, while the same file ends the run when it is given by itself.
-/

namespace TextGrammar.Lint

/-- A file that is taken for a grammar by its name, with its text if that can be read. -/
structure GrammarFile where
  path : String
  text : Option String
deriving DecidableEq

/-- The file lies at a path in an entry that stands at another. -/
inductive Lies (path : String) (text : Option String) : String → Entry → Prop
  | here : Lies path text path (.file text)
  | inside {folder name : String} {entry : Entry} {members : List (String × Entry)}
      (member : (name, entry) ∈ members)
      (below : Lies path text (FilePath.join folder name) entry) :
      Lies path text folder (.folder members)

mutual

/-- The grammar files of an entry, in the order in which they are met: those of a folder in order of
the names of its members. -/
def filesAt (path : String) : Entry → List GrammarFile
  | .folder members => (Keyed.sort (memberFiles path members)).flatMap (·.2)
  | .file text => if isGrammarPath path then [⟨path, text⟩] else []

/-- The grammar files of each member of a folder, by its name. -/
def memberFiles (folder : String) : List (String × Entry) → List (String × List GrammarFile)
  | [] => []
  | (name, entry) :: rest =>
    (name, filesAt (FilePath.join folder name) entry) :: memberFiles folder rest

end

theorem memberFiles_eq_map (folder : String) (members : List (String × Entry)) :
    memberFiles folder members = members.map fun member =>
      (member.1, filesAt (FilePath.join folder member.1) member.2) := by
  induction members with
  | nil => rw [memberFiles, List.map_nil]
  | cons member rest ih => rw [memberFiles, ih, List.map_cons]

/-- The grammar files of a folder are those of its members, in order of name. -/
theorem filesAt_folder (path : String) (members : List (String × Entry)) :
    filesAt path (.folder members) = (Keyed.sort members).flatMap fun member =>
      filesAt (FilePath.join path member.1) member.2 := by
  rw [filesAt, memberFiles_eq_map, Keyed.sort_map, List.flatMap_map]

mutual

theorem lies_of_mem_filesAt {file : GrammarFile} {path : String} : (entry : Entry) →
    file ∈ filesAt path entry → Lies file.path file.text path entry ∧ isGrammarPath file.path = true
  | .folder members, found => by
    rw [filesAt_folder] at found
    obtain ⟨member, among, below⟩ := List.mem_flatMap.mp found
    have held := Keyed.mem_sort.mp among
    obtain ⟨lies, grammar⟩ := lies_of_mem_member members held below
    exact ⟨.inside held lies, grammar⟩
  | .file text, found => by
    rw [filesAt] at found
    split at found
    · next grammar =>
      cases List.mem_singleton.mp found
      exact ⟨.here, grammar⟩
    · contradiction

theorem lies_of_mem_member {file : GrammarFile} {folder : String} {member : String × Entry} :
    (members : List (String × Entry)) → member ∈ members →
    file ∈ filesAt (FilePath.join folder member.1) member.2 →
      Lies file.path file.text (FilePath.join folder member.1) member.2 ∧
        isGrammarPath file.path = true
  | [], among, _ => by contradiction
  | (name, entry) :: rest, among, found => by
    rcases List.mem_cons.mp among with rfl | later
    · exact lies_of_mem_filesAt entry found
    · exact lies_of_mem_member rest later found

end

theorem Lies.mem_filesAt {path start : String} {text : Option String} {entry : Entry}
    (lies : Lies path text start entry) (grammar : isGrammarPath path = true) :
    ⟨path, text⟩ ∈ filesAt start entry := by
  induction lies with
  | here =>
    rw [filesAt, if_pos grammar]
    exact List.mem_singleton_self _
  | inside member _ ih =>
    rw [filesAt_folder]
    exact List.mem_flatMap.mpr ⟨_, Keyed.mem_sort.mpr member, ih⟩

/-- The files found in an entry are those that lie there, at any depth, and have the name of a
grammar. -/
theorem mem_filesAt_iff {file : GrammarFile} {path : String} {entry : Entry} :
    file ∈ filesAt path entry ↔
      Lies file.path file.text path entry ∧ isGrammarPath file.path = true :=
  ⟨lies_of_mem_filesAt entry, fun ⟨lies, grammar⟩ => lies.mem_filesAt grammar⟩

/-- The grammar of a file, if it can be read and parsed. -/
def GrammarFile.grammar? (file : GrammarFile) : Option Grammar :=
  (load file.path (.file file.text)).toOption

namespace Loaded

/-- Load a file over what was loaded before; one that cannot be loaded is passed over. -/
def add (loaded : Loaded) (file : GrammarFile) : Loaded :=
  match file.grammar? with
  | some grammar => ⟨loaded.paths ++ [file.path], loaded.grammar.merge grammar⟩
  | none => loaded

variable (files : List GrammarFile) (loaded : Loaded)

theorem grammar_foldl_add : (files.foldl add loaded).grammar =
    (files.filterMap GrammarFile.grammar?).foldl Grammar.merge loaded.grammar := by
  induction files generalizing loaded with
  | nil => rfl
  | cons file rest ih =>
    rw [List.foldl_cons, ih, add, List.filterMap_cons]
    cases file.grammar? <;> rfl

theorem paths_foldl_add : (files.foldl add loaded).paths =
    loaded.paths ++ (files.filter (·.grammar?.isSome)).map GrammarFile.path := by
  induction files generalizing loaded with
  | nil => exact (List.append_nil _).symm
  | cons file rest ih =>
    rw [List.foldl_cons, ih, add, List.filter_cons]
    cases file.grammar? with
    | none => rfl
    | some grammar => exact List.append_assoc ..

end Loaded

mutual

/-- What stands at a path is loaded one file after the other. -/
theorem loadMember_eq_foldl (path : String) : (entry : Entry) → (loaded : Loaded) →
    loadMember path entry loaded = (filesAt path entry).foldl Loaded.add loaded
  | .folder members, loaded => by
    rw [loadMember, memberLoads_eq_map, Keyed.sort_map, List.foldl_map, filesAt,
      List.foldl_flatMap]
  | .file text, loaded => by
    rw [loadMember, filesAt]
    split
    · rw [List.foldl_cons, List.foldl_nil, Loaded.add, GrammarFile.grammar?]
      cases load path (.file text) <;> rfl
    · rfl

theorem memberLoads_eq_map (folder : String) : (members : List (String × Entry)) →
    memberLoads folder members = (memberFiles folder members).map fun member =>
      (member.1, fun loaded => member.2.foldl Loaded.add loaded)
  | [] => by rw [memberLoads, memberFiles, List.map_nil]
  | (name, entry) :: rest => by
    have first : loadMember (FilePath.join folder name) entry =
        fun loaded => (filesAt (FilePath.join folder name) entry).foldl Loaded.add loaded :=
      funext (loadMember_eq_foldl (FilePath.join folder name) entry)
    rw [memberLoads, memberFiles, List.map_cons, first, memberLoads_eq_map folder rest]

end

/-- The grammars of some files laid over each other; those that cannot be loaded are left out. -/
def gathered (files : List GrammarFile) : Grammar :=
  (files.filterMap GrammarFile.grammar?).foldl Grammar.merge {}

/-- A path that names a grammar is not a call for help. -/
theorem ne_help_of_isGrammarPath {path : String} (grammar : isGrammarPath path = true) :
    ¬ (path = "--help" ∨ path = "-h") := by
  rintro (rfl | rfl)
  · exact absurd grammar (by decide)
  · exact absurd grammar (by decide)

section

variable {files : Files} {path : String} {members : List (String × Entry)}

/-- Given a folder, the linter prints what it loaded and its report on the whole, and its code tells
of faults in what was loaded. -/
theorem run_folder (words : List String) (asked : ¬ (path = "--help" ∨ path = "-h"))
    (folder : files path = some (.folder members)) :
    let found := filesAt path (.folder members)
    run files (path :: words) =
      { text := lines ((found.filter (·.grammar?.isSome)).map ("  Loaded: " ++ ·.path)) ++
          (check (gathered found)).render
        code := if (check (gathered found)).faults = [] then 0 else 1 } := by
  simp only [run, if_neg asked, folder, conclude, loadMembers, loadMember_eq_foldl,
    Loaded.grammar_foldl_add, Loaded.paths_foldl_add, List.nil_append, List.map_map,
    List.isEmpty_iff]
  rfl

/-- A grammar file that cannot be loaded ends the run when it is given by itself. -/
theorem run_unloadable (words : List String) {file : GrammarFile}
    (grammar : isGrammarPath file.path = true) (unloadable : file.grammar? = none)
    (stands : files file.path = some (.file file.text)) :
    run files (file.path :: words) = { code := 1 } := by
  rw [run, if_neg (ne_help_of_isGrammarPath grammar), stands]
  rw [GrammarFile.grammar?] at unloadable
  cases loads : load file.path (.file file.text) with
  | ok grammar =>
    rw [loads] at unloadable
    contradiction
  | error fault => simp only [loads]

/-- Given a folder, the linter ends with code zero exactly if what it could load has no faults: the
grammar files that it cannot load, at whatever depth they lie, do not count. So code zero vouches
for every file that was found only where all of them can be loaded, or where something is wrong with
the others anyway. Given by itself, each file that cannot be loaded makes the code one. -/
theorem run_folder_tells_faults_only (words : List String)
    (asked : ¬ (path = "--help" ∨ path = "-h")) (folder : files path = some (.folder members)) :
    let found := filesAt path (.folder members)
    let output := run files (path :: words)
    (∀ file, file ∈ found ↔
        Lies file.path file.text path (.folder members) ∧ isGrammarPath file.path = true) ∧
      (output.code = if (check (gathered found)).faults = [] then 0 else 1) ∧
      ((output.code = 0 →
          (∀ file ∈ found, file.grammar?.isSome) ∧ (check (gathered found)).faults = []) ↔
        ((∃ file ∈ found, file.grammar? = none) → (check (gathered found)).faults ≠ [])) ∧
      ∀ file ∈ found, file.grammar? = none → ∀ own : Files,
        own file.path = some (.file file.text) → (run own (file.path :: words)).code = 1 := by
  intro found output
  have code : output.code = if (check (gathered found)).faults = [] then 0 else 1 :=
    congrArg Output.code (run_folder words asked folder)
  refine ⟨fun file => mem_filesAt_iff, code, ?_, ?_⟩
  · rw [code]
    constructor
    · rintro vouches ⟨file, member, unloadable⟩ faultless
      have loadable := (vouches (if_pos faultless)).1 file member
      rw [unloadable] at loadable
      contradiction
    · intro faulty passes
      have faultless : (check (gathered found)).faults = [] := by
        by_contra faults
        rw [if_neg faults] at passes
        contradiction
      refine ⟨fun file member => ?_, faultless⟩
      by_contra unloadable
      exact faulty ⟨file, member, Option.not_isSome_iff_eq_none.mp unloadable⟩ faultless
  · intro file member unloadable own stands
    have grammar := (mem_filesAt_iff.mp member).2
    rw [run_unloadable words grammar unloadable stands]

end

/-- Songs, with one that breaks off in a folder of drafts. -/
def songs : List (String × Entry) := [
  ("drafts", .folder [("bad.json", .file (some "\x7b"))]),
  ("verse.ron", .file (some "\x7b\"verse\": \"la\"\x7d"))]

/-- Where the songs are. -/
def library : Files :=
  Entry.at? (.folder [("songs", .folder songs)])

/-- The draft that breaks off. -/
def brokenDraft : GrammarFile :=
  ⟨"songs/drafts/bad.json", some "\x7b"⟩

theorem filesAt_songs : filesAt "songs" (.folder songs) =
    [brokenDraft, ⟨"songs/verse.ron", some "\x7b\"verse\": \"la\"\x7d"⟩] := by
  have ordered : Keyed.Ascending songs := List.pairwise_pair.mpr (by decide)
  have alone (member : String × Entry) : Keyed.sort [member] = [member] :=
    Keyed.Ascending.sort_eq (List.pairwise_singleton _ _)
  rw [filesAt_folder, ordered.sort_eq]
  simp only [songs, List.flatMap_cons, List.flatMap_nil, filesAt_folder, alone]
  decide +kernel

/-- Of the songs only the verse counts for the code, which is one for the draft by itself. -/
theorem run_folder_tells_faults_only_songs :
    ¬ ("songs" = "--help" ∨ "songs" = "-h") ∧ library "songs" = some (.folder songs) ∧
      Lies brokenDraft.path brokenDraft.text "songs" (.folder songs) ∧
      (check (gathered (filesAt "songs" (.folder songs)))).faults = [] ∧
      (run library ["songs"]).code = 0 ∧
      ∀ own : Files, own brokenDraft.path = some (.file brokenDraft.text) →
        (run own [brokenDraft.path]).code = 1 := by
  have asked : ¬ ("songs" = "--help" ∨ "songs" = "-h") := by decide
  have folder : library "songs" = some (.folder songs) := by cbv
  have member : brokenDraft ∈ filesAt "songs" (.folder songs) :=
    filesAt_songs ▸ List.mem_cons_self
  have faultless : (check (gathered (filesAt "songs" (.folder songs)))).faults = [] := by
    rw [filesAt_songs]
    decide +kernel
  obtain ⟨found, code, _, alone⟩ := run_folder_tells_faults_only [] asked folder
  rw [if_pos faultless] at code
  exact ⟨asked, folder, ((found brokenDraft).mp member).1, faultless, code,
    alone brokenDraft member (by cbv)⟩

/-- The linter ends with code zero for the songs, though among the files that it found is a draft
that cannot be loaded and that makes the code one when it is given by itself. -/
theorem broken_draft_is_passed_over :
    library "songs" = some (.folder songs) ∧ brokenDraft ∈ filesAt "songs" (.folder songs) ∧
      brokenDraft.grammar? = none ∧ (run library ["songs"]).code = 0 ∧
      (run library [brokenDraft.path]).code = 1 := by
  have folder : library "songs" = some (.folder songs) := by cbv
  have asked : ¬ ("songs" = "--help" ∨ "songs" = "-h") := by decide
  refine ⟨folder, ?_, ?_, ?_, ?_⟩
  · rw [filesAt_songs]
    exact List.mem_cons_self
  · cbv
  · rw [run_folder [] asked folder, filesAt_songs]
    decide +kernel
  · decide +kernel

end TextGrammar.Lint
