import TextGrammar.Preview.Tool
import TextGrammar.Proofs.Gathering
import TextGrammar.Proofs.RoundTrip

/-! # Layers of rules

Rules from several sources are laid over each other as they are written, and made into symbols once;
or each source is made into a grammar of its own, and the grammars are merged. Both come to the same
symbols, since laying maps over each other is associative and goes together with a change of all
values. So the linter, which merges the files of a folder, checks the symbols that a grammar built
from the folder has.
-/

namespace TextGrammar

namespace Keyed

variable {α β : Type} {map other : List (String × α)}

/-- Changing all values goes together with laying entries over a map. -/
theorem overlay_map (change : String → α → β) (map entries : List (String × α)) :
    (overlay map entries).map (fun entry => (entry.1, change entry.1 entry.2)) =
      overlay (map.map fun entry => (entry.1, change entry.1 entry.2))
        (entries.map fun entry => (entry.1, change entry.1 entry.2)) := by
  induction entries generalizing map with
  | nil => rfl
  | cons entry rest ih =>
    have first := insert_map entry.1 change entry.2 map
    exact (ih (insert entry.1 entry.2 map)).trans (congrArg (overlay · _) first)

/-- An entry that is set in a map lands where it would if it were set after the map was laid. -/
theorem overlay_insert (ascending : Ascending map) (ascendingOther : Ascending other)
    (key : String) (value : α) :
    overlay map (insert key value other) = insert key value (overlay map other) := by
  have changed := ascendingOther.insert key value
  refine (ascending.overlay _).ext ((ascending.overlay _).insert key value) fun sought => ?_
  rw [lookup_overlay changed, lookup_insert, lookup_insert, lookup_overlay ascendingOther]
  split
  · exact Option.some_or
  · rfl

/-- Laying maps over each other is associative. -/
theorem overlay_overlay (ascending : Ascending map) (ascendingOther : Ascending other)
    (entries : List (String × α)) :
    overlay map (overlay other entries) = overlay (overlay map other) entries := by
  induction entries generalizing other with
  | nil => rfl
  | cons entry rest ih =>
    have inserted := overlay_insert ascending ascendingOther entry.1 entry.2
    exact (ih (ascendingOther.insert entry.1 entry.2)).trans (congrArg (overlay · rest) inserted)

end Keyed

section

variable {ε α β γ : Type} {read : α → Except ε β} {list : List α}

theorem mapM_map (change : β → γ) :
    (list.mapM fun item => (read item).map change) = (list.mapM read).map (·.map change) := by
  induction list with
  | nil => rfl
  | cons item rest ih =>
    rw [List.mapM_cons, List.mapM_cons, ih]
    cases read item with
    | error fault => rfl
    | ok value => cases rest.mapM read <;> rfl

theorem exists_of_mem_mapM {values : List β} {value : β} (reads : list.mapM read = .ok values)
    (member : value ∈ values) : ∃ item ∈ list, read item = .ok value := by
  induction list generalizing values with
  | nil =>
    cases reads
    contradiction
  | cons item rest ih =>
    rw [List.mapM_cons] at reads
    obtain ⟨first, here, reads⟩ := ok_of_bind_ok reads
    obtain ⟨others, later, reads⟩ := ok_of_bind_ok reads
    cases reads
    rcases List.mem_cons.mp member with rfl | member
    · exact ⟨item, List.mem_cons_self, here⟩
    · obtain ⟨source, among, found⟩ := ih later member
      exact ⟨source, List.mem_cons_of_mem item among, found⟩

theorem exists_mapM_ok (reads : ∀ item ∈ list, ∃ value, read item = .ok value) :
    ∃ values, list.mapM read = .ok values := by
  induction list with
  | nil => exact ⟨[], rfl⟩
  | cons item rest ih =>
    obtain ⟨here, later⟩ := List.forall_mem_cons.mp reads
    obtain ⟨value, here⟩ := here
    obtain ⟨values, later⟩ := ih later
    refine ⟨value :: values, ?_⟩
    rw [List.mapM_cons, here, later]
    rfl

end

section Sources

open Keyed

variable {files : Files} {rules other : WrittenGrammar}

/-- Files are read one by one, and their rules laid over others in order. -/
theorem overlayFiles_eq (entries : List Entry) (rules : WrittenGrammar) :
    overlayFiles rules entries =
      (entries.mapM fun entry => rulesOfFile (some entry)).map (·.foldl overlay rules) := by
  induction entries generalizing rules with
  | nil => rfl
  | cons entry rest ih =>
    rw [overlayFiles, List.mapM_cons]
    cases rulesOfFile (some entry) with
    | error fault => rfl
    | ok more =>
      refine (ih (overlay rules more)).trans ?_
      cases rest.mapM fun entry => rulesOfFile (some entry) <;> rfl

theorem foldl_overlay (ascending : Ascending rules) (ascendingOther : Ascending other)
    (layers : List WrittenGrammar) :
    layers.foldl overlay (overlay rules other) = overlay rules (layers.foldl overlay other) := by
  induction layers generalizing other with
  | nil => rfl
  | cons layer rest ih =>
    rw [List.foldl_cons, List.foldl_cons, ← overlay_overlay ascending ascendingOther]
    exact ih (ascendingOther.overlay layer)

/-- The rules of a source by itself. -/
def Source.layer (files : Files) (source : Source) : Except LoadError WrittenGrammar :=
  source.overlay files []

theorem Source.ascending_layer {source : Source} (reads : source.layer files = .ok rules) :
    Ascending rules :=
  Source.ascending_overlay .nil reads

/-- Laying a source over rules is laying its own rules over them. -/
theorem Source.overlay_eq (ascending : Ascending rules) (source : Source) :
    source.overlay files rules = (source.layer files).map (Keyed.overlay rules) := by
  have once (entries : WrittenGrammar) :
      Keyed.overlay rules (Keyed.overlay [] entries) = Keyed.overlay rules entries :=
    overlay_overlay ascending .nil entries
  cases source with
  | rules more => exact congrArg Except.ok (once more).symm
  | ron text | json text | ronFile path =>
    simp only [Source.layer, Source.overlay, bind, Except.bind, pure, Except.pure]
    split
    · rfl
    · next more _ => exact congrArg Except.ok (once more).symm
  | ronFolder path =>
    simp only [Source.layer, Source.overlay]
    split
    · rw [overlayFiles_eq, overlayFiles_eq]
      cases (ronMembers _).mapM fun entry => rulesOfFile (some entry) with
      | error fault => rfl
      | ok layers => exact congrArg Except.ok (foldl_overlay ascending .nil layers)
    · rfl

/-- The rules of sources are laid over others in order. -/
theorem overlaySources_eq (ascending : Ascending rules) (sources : List Source) :
    overlaySources files rules sources =
      (sources.mapM (Source.layer files)).map (·.foldl overlay rules) := by
  induction sources generalizing rules with
  | nil => rfl
  | cons source rest ih =>
    rw [overlaySources, List.mapM_cons, Source.overlay_eq ascending]
    cases source.layer files with
    | error fault => rfl
    | ok layer =>
      refine (ih (ascending.overlay layer)).trans ?_
      cases rest.mapM (Source.layer files) <;> rfl

end Sources

namespace Grammar

/-- Grammars merged in order. -/
def mergeAll : List Grammar → Grammar
  | [] => {}
  | first :: rest => rest.foldl merge first

/-- The symbols that written rules declare. -/
theorem symbols_ofWritten (rules : WrittenGrammar) (settings : Settings) :
    (ofWritten rules settings).symbols = rules.map fun entry =>
      (entry.1, .declared entry.1 (.ofWritten settings.falloff entry.2)) := rfl

theorem symbols_foldl_merge (grammar : Grammar) (others : List Grammar) :
    (others.foldl merge grammar).symbols =
      (others.map symbols).foldl Keyed.overlay grammar.symbols := by
  induction others generalizing grammar with
  | nil => rfl
  | cons other rest ih => exact ih (grammar.merge other)

/-- Merging what layers of rules declare comes to what the layers declare together. -/
theorem foldl_overlay_ofWritten (settings : Settings) (rules : WrittenGrammar)
    (layers : List WrittenGrammar) :
    (layers.map fun layer => (ofWritten layer settings).symbols).foldl Keyed.overlay
        (ofWritten rules settings).symbols =
      (ofWritten (layers.foldl Keyed.overlay rules) settings).symbols := by
  induction layers generalizing rules with
  | nil => rfl
  | cons layer rest ih =>
    rw [List.map_cons, List.foldl_cons, List.foldl_cons, ← ih]
    have together := Keyed.overlay_map
      (fun key rules => Symbol.declared key (.ofWritten settings.falloff rules)) rules layer
    exact congrArg (fun start => List.foldl Keyed.overlay start _) together.symm

/-- Merged in order, grammars of layers have the symbols that the layers declare together. -/
theorem symbols_mergeAll {grammars : List Grammar} {layers : List WrittenGrammar}
    {settings : Settings}
    (declare : grammars.map symbols = layers.map fun layer => (ofWritten layer settings).symbols)
    (ascending : ∀ layer ∈ layers, Keyed.Ascending layer) :
    (mergeAll grammars).symbols = (ofWritten (layers.foldl Keyed.overlay []) settings).symbols := by
  cases layers with
  | nil =>
    cases List.map_eq_nil_iff.mp declare
    rfl
  | cons layer layers =>
    obtain ⟨first, rest, rfl, firstSymbols, others⟩ := List.map_eq_cons_iff.mp declare
    have alone : Keyed.overlay [] layer = layer := (ascending layer List.mem_cons_self).ofEntries_eq
    rw [mergeAll, symbols_foldl_merge, firstSymbols, others, foldl_overlay_ofWritten,
      List.foldl_cons, alone]

end Grammar

/-- A grammar with the settings, modifiers and subgrammars of a recipe. -/
def Recipe.furnish (recipe : Recipe) (settings : Settings) (rules : WrittenGrammar) : Grammar :=
  let base := if recipe.baseModifiers then English.modifiers else []
  { (Grammar.ofWritten rules settings).addModifiers (base ++ recipe.modifiers) with
    subgrammars := recipe.subgrammars }

section Building

variable {files : Files} {recipe : Recipe} {settings : Settings}

theorem Recipe.build_eq (chosen : recipe.chosenSettings files = .ok settings)
    (sources : List Source) :
    { recipe with sources }.build files =
      (overlaySources files [] sources).map (recipe.furnish settings) := by
  have same : { recipe with sources }.chosenSettings files = .ok settings := chosen
  rw [Recipe.build, same]
  rfl

theorem Recipe.build_alone (chosen : recipe.chosenSettings files = .ok settings)
    (source : Source) :
    { recipe with sources := [source] }.build files =
      (source.layer files).map (recipe.furnish settings) := by
  rw [Recipe.build_eq chosen, overlaySources, Source.layer]
  cases source.overlay files [] <;> rfl

/-- Sources built together have the symbols that they have when each is built by itself and the
grammars are merged in order. What fails first by itself fails the whole. -/
theorem Recipe.symbols_build (chosen : recipe.chosenSettings files = .ok settings)
    (sources : List Source) :
    ({ recipe with sources }.build files).map Grammar.symbols =
      (sources.mapM fun source => { recipe with sources := [source] }.build files).map
        fun grammars => (Grammar.mergeAll grammars).symbols := by
  have alone : (fun source => { recipe with sources := [source] }.build files) =
      fun source => (source.layer files).map (recipe.furnish settings) :=
    funext (Recipe.build_alone chosen)
  rw [Recipe.build_eq chosen, overlaySources_eq .nil, alone, mapM_map]
  cases read : sources.mapM (Source.layer files) with
  | error fault => rfl
  | ok layers =>
    have ascending : ∀ layer ∈ layers, Keyed.Ascending layer := by
      intro layer member
      obtain ⟨source, _, reads⟩ := exists_of_mem_mapM read member
      exact Source.ascending_layer reads
    have declare : (layers.map (recipe.furnish settings)).map Grammar.symbols =
        layers.map fun layer => (Grammar.ofWritten layer settings).symbols := List.map_map
    exact congrArg Except.ok (Grammar.symbols_mergeAll declare ascending).symm

/-- Where every source can be built by itself, all of them can be built together. -/
theorem Recipe.exists_build (chosen : recipe.chosenSettings files = .ok settings)
    {sources : List Source} (valid : ∀ source ∈ sources, ∃ alone,
      { recipe with sources := [source] }.build files = .ok alone) :
    ∃ whole, { recipe with sources }.build files = .ok whole := by
  have reads : ∀ source ∈ sources, ∃ layer, source.layer files = .ok layer := by
    intro source member
    obtain ⟨alone, built⟩ := valid source member
    rw [Recipe.build_alone chosen] at built
    cases read : source.layer files with
    | ok layer => exact ⟨layer, rfl⟩
    | error fault =>
      rw [read] at built
      contradiction
  obtain ⟨layers, read⟩ := exists_mapM_ok reads
  rw [Recipe.build_eq chosen, overlaySources_eq .nil, read]
  exact ⟨_, rfl⟩

end Building

/-- The pieces of two texts with the mark between them. -/
theorem Text.split_append (mark : Char) (first second : String) :
    split mark (first ++ .singleton mark ++ second) = split mark first ++ split mark second := by
  simp only [split, String.toList_append, String.toList_singleton, List.append_assoc,
    List.singleton_append, List.splitOn_append_cons_self, List.map_append]

namespace FilePath

/-- The steps to a member of a folder lead to the folder first. -/
theorem steps_join (folder member : String) :
    steps (join folder member) = steps folder ++ steps member := by
  rw [join]
  split
  · next ends =>
    -- The folder brings its slash along; behind it is a last step that stays in place.
    obtain ⟨front, split⟩ := List.getLast?_eq_some_iff.mp ends
    obtain rfl : folder = .ofList front ++ .singleton '/' := by
      apply String.toList_injective
      rw [String.toList_append, String.toList_ofList, String.toList_singleton, split]
    have closed := Text.split_append '/' (.ofList front) ""
    rw [String.append_empty] at closed
    rw [steps, Text.split_append, steps, closed, List.filter_append, List.filter_append,
      List.append_assoc]
    rfl
  · rw [steps, show "/" = String.singleton '/' from rfl, Text.split_append, List.filter_append]
    rfl

/-- A member of a folder has the extension that its name has. -/
theorem extension?_join {member extension : String} (folder : String)
    (named : extension? member = some extension) :
    extension? (join folder member) = some extension := by
  obtain ⟨name, last, _⟩ := Option.bind_eq_some_iff.mp named
  have leads : (steps member).getLast?.isSome := by
    rw [name?] at last
    split at last
    · next found =>
      rw [found]
      rfl
    · contradiction
  have same : name? (join folder member) = name? member := by
    rw [name?, name?, steps_join, List.getLast?_append, Option.or_of_isSome leads]
  rw [extension?, same]
  exact named

end FilePath

/-- A member of a folder that has the name of a RON file and holds rules. -/
def HoldsRon (member : String × Entry) : Prop :=
  FilePath.extension? member.1 = some "ron" ∧ ∃ rules, rulesOfFile (some member.2) = .ok rules

theorem exists_ok_iff {ε α : Type} {result : Except ε α} :
    result.toOption.isSome = true ↔ ∃ value, result = .ok value := by
  cases result with
  | ok value => exact ⟨fun _ => ⟨value, rfl⟩, fun _ => rfl⟩
  | error fault => exact ⟨fun succeeds => by contradiction, fun ⟨_, succeeds⟩ => by contradiction⟩

instance (member : String × Entry) : Decidable (HoldsRon member) :=
  decidable_of_iff (_ ∧ _) (and_congr_right' exists_ok_iff)

section Folders

open Lint

variable {members : List (String × Entry)}

/-- What holds rules is a file that can be read. -/
theorem HoldsRon.file {member : String × Entry} (holds : HoldsRon member) :
    ∃ text rules, member.2 = .file (some text) ∧ rulesOfRon text = .ok rules := by
  obtain ⟨_, rules, reads⟩ := holds
  obtain ⟨text, read, named⟩ := ok_of_bind_ok reads
  rcases member with ⟨name, (_ | content) | below⟩
  · contradiction
  · cases read
    exact ⟨text, rules, rfl, named⟩
  · contradiction

/-- The linter finds such a file, and loads it. -/
theorem HoldsRon.filesAt {name : String} {entry : Entry} (holds : HoldsRon (name, entry))
    (path : String) :
    ∃ file rules, Lint.filesAt (FilePath.join path name) entry = [file] ∧
      rulesOfFile (some entry) = .ok rules ∧ file.grammar? = some (.ofWritten rules {}) := by
  obtain ⟨text, rules, here, named⟩ := holds.file
  obtain rfl : entry = .file (some text) := here
  have extension := FilePath.extension?_join path holds.1
  have grammar : isGrammarPath (FilePath.join path name) = true := by
    rw [isGrammarPath, extension]
    rfl
  have loads : load (FilePath.join path name) (.file (some text)) = .ok (.ofWritten rules {}) := by
    have ron : ¬ (some "ron" = some "json") := by decide
    rw [load, extension]
    change (if some "ron" = some "json" then Grammar.ofJson text else Grammar.ofRon text) = _
    rw [if_neg ron, Grammar.ofRon, named]
    rfl
  refine ⟨⟨FilePath.join path name, some text⟩, rules, ?_, named, ?_⟩
  · rw [Lint.filesAt, if_pos grammar]
  · rw [GrammarFile.grammar?, loads]
    rfl

/-- Of RON files, one after the other, the linter gathers the grammars that their rules declare. -/
theorem layers_of_holdsRon (path : String) (holds : ∀ member ∈ members, HoldsRon member) :
    ∃ layers, (members.map (·.2)).mapM (fun entry => rulesOfFile (some entry)) = .ok layers ∧
      (members.flatMap fun member => Lint.filesAt (FilePath.join path member.1) member.2).filterMap
        GrammarFile.grammar? = layers.map (.ofWritten · {}) := by
  induction members with
  | nil => exact ⟨[], rfl, rfl⟩
  | cons member rest ih =>
    rcases member with ⟨name, entry⟩
    obtain ⟨first, others⟩ := List.forall_mem_cons.mp holds
    obtain ⟨file, rules, found, named, grammar⟩ := first.filesAt path
    obtain ⟨layers, read, gathered⟩ := ih others
    refine ⟨rules :: layers, ?_, ?_⟩
    · rw [List.map_cons, List.mapM_cons, named, read]
      rfl
    · rw [List.flatMap_cons, found, List.singleton_append, List.filterMap_cons_some grammar,
        gathered]
      rfl

/-- A folder of RON files is laid over others file by file, all of them in order of name. -/
theorem ronMembers_of_holdsRon (holds : ∀ member ∈ members, HoldsRon member) :
    ronMembers (.folder members) = (Keyed.sort members).map (·.2) := by
  have all : (Entry.folder members).members.filter
      (fun member => FilePath.extension? member.1 == some "ron") = members := by
    refine List.filter_eq_self.mpr fun member among => ?_
    rw [(holds member among).1]
    rfl
  rw [ronMembers, all]

/-- The rules of a folder of RON files by itself, and what the linter makes of the folder. -/
theorem layer_of_folder {files : Files} {path : String}
    (folder : files path = some (.folder members)) (holds : ∀ member ∈ members, HoldsRon member) :
    ∃ rules, (Source.ronFolder path).layer files = .ok rules ∧
      (loadMembers {} path members).grammar.symbols = (Grammar.ofWritten rules {}).symbols := by
  have sorted : ∀ member ∈ Keyed.sort members, HoldsRon member := fun member among =>
    holds member (Keyed.mem_sort.mp among)
  obtain ⟨layers, read, gathered⟩ := layers_of_holdsRon path sorted
  refine ⟨layers.foldl Keyed.overlay [], ?_, ?_⟩
  · simp only [Source.layer, Source.overlay, folder]
    rw [overlayFiles_eq, ronMembers_of_holdsRon holds, read]
    rfl
  · rw [loadMembers, loadMember_eq_foldl, filesAt_folder, Loaded.grammar_foldl_add, gathered,
      Grammar.symbols_foldl_merge, List.map_map]
    exact Grammar.foldl_overlay_ofWritten {} [] layers

/-- The preview tool builds the folder like any other source, with settings of its own. -/
theorem load_of_folder {files : Files} {path : String} {rules : WrittenGrammar}
    (folder : files path = some (.folder members))
    (read : (Source.ronFolder path).layer files = .ok rules) :
    ∃ shown, Preview.load files path = .ok shown ∧
      shown.symbols = (Grammar.ofWritten rules {}).symbols := by
  have valid : ({} : Settings).fault? = none := by decide +kernel
  have chosen : ({ baseModifiers := true } : Recipe).chosenSettings files = .ok {} := by
    simp only [Recipe.chosenSettings, Option.getD_none, pure_bind, valid]
  have found : Preview.sourceAt files path = .ok (.ronFolder path) := by
    simp only [Preview.sourceAt, folder]
  have built := Recipe.build_alone chosen (.ronFolder path)
  rw [read] at built
  refine ⟨({ baseModifiers := true } : Recipe).furnish {} rules, ?_, rfl⟩
  rw [Preview.load, found]
  exact built

end Folders

namespace Lint

section

variable (falloff other : Float)

mutual

/-- What the linter reads of a set does not depend on its falloff. -/
theorem alternatives_ofWritten : (rules : WrittenRules) →
    alternatives (.ofWritten falloff rules) = alternatives (.ofWritten other rules)
  | .one _ | .many _ => rfl
  | .conditional _ branches defaults =>
    congrArg (defaults ++ ·) (alternatives_branchesOfWritten branches)

theorem alternatives_branchesOfWritten : (branches : List (String × WrittenRules)) →
    alternativesOfBranches (RuleSet.branchesOfWritten falloff branches) =
      alternativesOfBranches (RuleSet.branchesOfWritten other branches)
  | [] => rfl
  | (_, rules) :: rest =>
    congrArg₂ (· ++ ·) (alternatives_ofWritten rules) (alternatives_branchesOfWritten rest)

end

mutual

theorem conditions_ofWritten : (rules : WrittenRules) →
    conditions (.ofWritten falloff rules) = conditions (.ofWritten other rules)
  | .one _ | .many _ => rfl
  | .conditional condition branches _ =>
    congrArg (condition :: ·) (conditions_branchesOfWritten branches)

theorem conditions_branchesOfWritten : (branches : List (String × WrittenRules)) →
    conditionsOfBranches (RuleSet.branchesOfWritten falloff branches) =
      conditionsOfBranches (RuleSet.branchesOfWritten other branches)
  | [] => rfl
  | (_, rules) :: rest =>
    congrArg₂ (· ++ ·) (conditions_ofWritten rules) (conditions_branchesOfWritten rest)

end

end

theorem check_congr {one other : Grammar} (same : one.symbols = other.symbols) :
    check one = check other := by
  simp only [check, pushedSymbols, faultsOf, same]

/-- The linter finds the same in written rules whatever the settings are. -/
theorem check_ofWritten (rules : WrittenGrammar) (settings other : Settings) :
    check (.ofWritten rules settings) = check (.ofWritten rules other) := by
  have references (entry : String × WrittenRules) :
      referencesOf (.declared entry.1 (.ofWritten settings.falloff entry.2)) =
        referencesOf (.declared entry.1 (.ofWritten other.falloff entry.2)) := by
    simp only [referencesOf, Symbol.declared, conditions_ofWritten settings.falloff other.falloff,
      alternatives_ofWritten settings.falloff other.falloff]
  have endless (entry : String × WrittenRules) :
      isEndless entry.1 (.declared entry.1 (.ofWritten settings.falloff entry.2)) =
        isEndless entry.1 (.declared entry.1 (.ofWritten other.falloff entry.2)) := by
    simp only [isEndless, Symbol.declared,
      alternatives_ofWritten settings.falloff other.falloff]
  have has (target : String) :
      Keyed.has target (Grammar.ofWritten rules settings).symbols =
        Keyed.has target (Grammar.ofWritten rules other).symbols := by
    have found := Grammar.symbol?_ofWritten rules settings target
    have foundOther := Grammar.symbol?_ofWritten rules other target
    rw [Grammar.symbol?] at found foundOther
    rw [Keyed.has, Keyed.has, found, foundOther, Option.isSome_map, Option.isSome_map]
  simp only [check, pushedSymbols, faultsOf, has]
  simp only [Grammar.symbols_ofWritten, List.filter_map, List.map_map, List.flatMap_map,
    Function.comp_def, references, endless]

end Lint

/-- Rules that are laid over each other and made into symbols once come to the same as grammars that
are built by themselves and merged in order: the symbols are the same, and the first failure is.
So the linter checks what is built from a folder of RON files: its symbols are those that the
preview tool loads, and those that every grammar built from the folder has, up to the falloff that
the settings give to all of them, on which no finding of the linter depends. -/
theorem merging_agrees_with_building {files : Files} {recipe : Recipe} {settings : Settings}
    (chosen : recipe.chosenSettings files = .ok settings) :
    (∀ sources : List Source,
      ({ recipe with sources }.build files).map Grammar.symbols =
          (sources.mapM fun source => { recipe with sources := [source] }.build files).map
            (fun grammars => (Grammar.mergeAll grammars).symbols) ∧
        ((∀ source ∈ sources, ∃ alone,
            { recipe with sources := [source] }.build files = .ok alone) →
          ∃ whole, { recipe with sources }.build files = .ok whole)) ∧
      ∀ path members, files path = some (.folder members) → (∀ member ∈ members, HoldsRon member) →
        let linted := (Lint.loadMembers {} path members).grammar
        ∃ shown built, Preview.load files path = .ok shown ∧
          { recipe with sources := [.ronFolder path] }.build files = .ok built ∧
          linted.symbols = shown.symbols ∧ Lint.check linted = Lint.check built ∧
          (settings.falloff = ({} : Settings).falloff → linted.symbols = built.symbols) := by
  refine ⟨fun sources => ⟨Recipe.symbols_build chosen sources, Recipe.exists_build chosen⟩, ?_⟩
  intro path members folder holds linted
  obtain ⟨rules, read, gathered⟩ := layer_of_folder folder holds
  obtain ⟨shown, loads, symbols⟩ := load_of_folder folder read
  have built : { recipe with sources := [.ronFolder path] }.build files =
      .ok (recipe.furnish settings rules) := by
    rw [Recipe.build_alone chosen, read]
    rfl
  refine ⟨shown, recipe.furnish settings rules, loads, built, gathered.trans symbols.symm, ?_, ?_⟩
  · calc
      Lint.check linted = Lint.check (.ofWritten rules {}) := Lint.check_congr gathered
      _ = Lint.check (.ofWritten rules settings) := Lint.check_ofWritten rules {} settings
      _ = Lint.check (recipe.furnish settings rules) := Lint.check_congr rfl
  · intro even
    refine gathered.trans ?_
    rw [Grammar.symbols_ofWritten, ← even]
    rfl

/-- Two files of songs; the second has a verse of its own. -/
def songbook : List (String × Entry) := [
  ("a.ron", .file (some "\x7b\"chorus\": \"#verse#\", \"verse\": \"la\"\x7d")),
  ("b.ron", .file (some "\x7b\"verse\": [\"na\", \"oh\"]\x7d"))]

/-- Where the songbook is. -/
def piano : Files :=
  Entry.at? (.folder [("songs", .folder songbook)])

/-- The later verse wins, whether the files are merged or laid over each other, and both of them win
over a verse from elsewhere. -/
theorem merging_agrees_with_building_songbook :
    let recipe : Recipe := {}
    let sources := [.rules [("verse", .one "hm"), ("coda", .many ["oh"])], .ronFolder "songs"]
    let linted := (Lint.loadMembers {} "songs" songbook).grammar
    recipe.chosenSettings piano = .ok {} ∧ piano "songs" = some (.folder songbook) ∧
      (∀ member ∈ songbook, HoldsRon member) ∧
      ({ recipe with sources }.build piano).toOption.map Grammar.symbolNames =
        some ["chorus", "coda", "verse"] ∧
      ({ recipe with sources }.build piano).map Grammar.symbols =
        (sources.mapM fun source => { recipe with sources := [source] }.build piano).map
          (fun grammars => (Grammar.mergeAll grammars).symbols) ∧
      ∃ shown, Preview.load piano "songs" = .ok shown ∧ linted.symbols = shown.symbols ∧
        linted.symbolNames = ["chorus", "verse"] := by
  intro recipe sources linted
  have valid : ({} : Settings).fault? = none := by decide +kernel
  have chosen : recipe.chosenSettings piano = .ok {} := by
    simp only [recipe, Recipe.chosenSettings, Option.getD_none, pure_bind, valid]
  have folder : piano "songs" = some (.folder songbook) := by cbv
  have holds : ∀ member ∈ songbook, HoldsRon member := by decide +kernel
  have ordered : Keyed.Ascending songbook := List.pairwise_pair.mpr (by decide)
  have read : ronMembers (.folder songbook) = songbook.map (·.2) := by
    rw [ronMembers_of_holdsRon holds, ordered.sort_eq]
  have names : ({ recipe with sources }.build piano).toOption.map Grammar.symbolNames =
      some ["chorus", "coda", "verse"] := by
    simp only [sources, Recipe.build, overlaySources, Source.overlay, folder, read]
    decide +kernel
  have gathered : linted.symbolNames = ["chorus", "verse"] := by
    simp only [linted, Lint.loadMembers, Lint.loadMember_eq_foldl, Lint.filesAt_folder,
      ordered.sort_eq]
    decide +kernel
  obtain ⟨layered, folders⟩ := merging_agrees_with_building chosen
  obtain ⟨shown, _, loads, _, same, _⟩ := folders "songs" songbook folder holds
  exact ⟨chosen, folder, holds, names, (layered sources).1, shown, loads, same, gathered⟩

end TextGrammar
