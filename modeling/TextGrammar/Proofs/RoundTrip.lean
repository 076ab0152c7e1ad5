import Mathlib
import TextGrammar.Proofs.JsonReading
import TextGrammar.Proofs.Mapped

/-! # Grammars written and read back

Written rules are read back from the text that writes them, whatever their texts are, as long as
their branches are maps: each shape is written in a form that the reader takes for no other. What a
grammar that can be reached shows on its stacks is of this kind. An empty stack shows an empty list.
-/

namespace TextGrammar

namespace Json

/-- Characters write a datum: they are read as it wherever a value may come. -/
def Writes (chars : List Char) (value : Datum) : Prop :=
  ∀ {expecting : Expecting}, expecting.Awaits → ∀ frames,
    Reads chars ⟨expecting, frames⟩ ⟨.next value, frames⟩

theorem writes_text (text : String) : Writes (writtenText text) (.text text) := by
  intro expecting awaits frames
  have reads := Reads.text text (.atom awaits (.text text) frames) (.done _)
  rwa [List.append_nil] at reads

theorem writes_texts (texts : List String) :
    List.Forall₂ Writes (texts.map writtenText) (texts.map .text) := by
  induction texts with
  | nil => exact .nil
  | cons text rest ih => exact .cons (writes_text text) ih

theorem writtenLines_cons (level : Nat) (part : List Char) (parts : List (List Char)) :
    writtenLines level (part :: parts) =
      newLine level ++ part ++ parts.flatMap fun next => [','] ++ (newLine level ++ next) := by
  induction parts generalizing part with
  | nil => simp [writtenLines, List.intercalate]
  | cons next rest ih =>
    simp only [writtenLines, List.map_cons, List.intercalate] at ih ⊢
    simp [ih]

theorem reads_newLine (level : Nat) (state : Assembly) : Reads (newLine level) state state := by
  refine .blank rfl ?_
  induction 2 * level with
  | zero => exact .done state
  | succ count ih => exact .blank rfl ih

/-- A list or a table while its parts are put together. The parts held are latest first. -/
structure Sequence (α : Type) where
  /-- A part may come. -/
  ready : List α → Assembly
  /-- A part has come after those held. -/
  full : α → List α → Assembly
  /-- All parts have come, here in their order. -/
  done : List α → Assembly
  closing : Char
  comma (part : α) (held : List α) : (full part held).Step .comma (ready (part :: held))
  close (part : α) (held : List α) : ∃ token, mark? closing = some token ∧
    (full part held).Step token (done (part :: held).reverse)

/-- The items of a list. -/
def itemsIn (frames : List Frame) : Sequence Datum where
  ready held := ⟨.value, .list held :: frames⟩
  full item held := ⟨.next item, .list held :: frames⟩
  done items := ⟨.next (.list items), frames⟩
  closing := ']'
  comma item held := .nextItem item held frames
  close item held := ⟨.closeList, rfl, .closeList item held frames⟩

/-- The entries of a table. -/
def entriesIn (frames : List Frame) : Sequence (Datum × Datum) where
  ready held := ⟨.key held false, frames⟩
  full entry held := ⟨.next entry.2, .table held entry.1 :: frames⟩
  done entries := ⟨.next (.table entries), frames⟩
  closing := '\x7d'
  comma entry held := .nextEntry entry.2 held entry.1 frames
  close entry held := ⟨.closeTable, rfl, .closeTable entry.2 held entry.1 frames⟩

namespace Sequence

variable {α : Type} (sequence : Sequence α) {parts : List (List Char)} {rest : List α}
  (each : List.Forall₂ (fun part value =>
    ∀ held, Reads part (sequence.ready held) (sequence.full value held)) parts rest)
include each

theorem reads_rest (level : Nat) (value : α) (held : List α) :
    Reads (parts.flatMap (fun part => [','] ++ (newLine (level + 1) ++ part)) ++
        (newLine level ++ [sequence.closing]))
      (sequence.full value held) (sequence.done (held.reverse ++ value :: rest)) := by
  -- By the parts still to come; a part that has come is held when the next one does.
  induction each generalizing value held with
  | nil =>
    obtain ⟨token, means, close⟩ := sequence.close value held
    rw [List.reverse_cons] at close
    exact (reads_newLine level _).trans (.mark means close (.done _))
  | @cons part next parts rest reads _ ih =>
    have line := (reads_newLine (level + 1) _).trans (reads (value :: held))
    have later := ih next (value :: held)
    rw [List.reverse_cons, List.append_assoc, List.singleton_append] at later
    rw [List.flatMap_cons, List.append_assoc]
    exact Reads.trans (.mark rfl (sequence.comma value held) line) later

/-- The lines of a list or table are read part by part. -/
theorem reads_lines {start : Assembly} {part : List Char} {value : α}
    (first : Reads part start (sequence.full value [])) (level : Nat) :
    Reads (writtenLines (level + 1) (part :: parts) ++ newLine level ++ [sequence.closing]) start
      (sequence.done (value :: rest)) := by
  have line := (reads_newLine (level + 1) _).trans first
  rw [writtenLines_cons, List.append_assoc, List.append_assoc]
  exact line.trans (sequence.reads_rest each level value [])

end Sequence

theorem writes_list (level : Nat) {parts : List (List Char)} {items : List Datum}
    (each : List.Forall₂ Writes parts items) : Writes (writtenList level parts) (.list items) := by
  intro expecting awaits frames
  cases each with
  | nil => exact .mark rfl (.openList awaits frames) (.mark rfl (.endList [] frames) (.done _))
  | cons first rest =>
    have others := rest.imp fun _ _ writes held => writes .value (.list held :: frames)
    refine .mark rfl (.openList awaits frames) ?_
    exact (itemsIn frames).reads_lines others (first .valueOrEnd _) level

/-- A part of a table is written under the name that is the key of its entry. -/
def WritesEntry (part : String × List Char) (entry : Datum × Datum) : Prop :=
  entry.1 = .text part.1 ∧ Writes part.2 entry.2

theorem WritesEntry.reads {part : String × List Char} {entry : Datum × Datum}
    (writes : WritesEntry part entry) (held : List (Datum × Datum)) (mayEnd : Bool)
    (frames : List Frame) :
    Reads (writtenText part.1 ++ [':', ' '] ++ part.2) ⟨.key held mayEnd, frames⟩
      ⟨.next entry.2, .table held entry.1 :: frames⟩ := by
  obtain ⟨name, part⟩ := part
  obtain ⟨key, value⟩ := entry
  obtain ⟨rfl, writes⟩ := writes
  rw [List.append_assoc]
  refine .text name (.key held mayEnd name frames) (.mark rfl (.colon held _ frames) ?_)
  exact .blank rfl (writes .value _)

theorem writes_table (level : Nat) {parts : List (String × List Char)}
    {entries : List (Datum × Datum)} (each : List.Forall₂ WritesEntry parts entries) :
    Writes (writtenTable level parts) (.table entries) := by
  intro expecting awaits frames
  cases each with
  | nil => exact .mark rfl (.openTable awaits frames) (.mark rfl (.endTable [] frames) (.done _))
  | cons first rest =>
    have others := rest.imp fun _ _ writes held => writes.reads held false frames
    refine .mark rfl (.openTable awaits frames) ?_
    exact (entriesIn frames).reads_lines (List.forall₂_map_left_iff.mpr others)
      (first.reads [] true frames) level

end Json

/-! ## Written rules as data -/

namespace Keyed

variable {α : Type}

/-- Setting a key after all others adds an entry at the end. -/
theorem insert_of_forall_lt {key : String} {map : List (String × α)}
    (below : ∀ entry ∈ map, entry.1 < key) (value : α) :
    insert key value map = map ++ [(key, value)] := by
  induction map with
  | nil => rfl
  | cons first rest ih =>
    obtain ⟨before, below⟩ := List.forall_mem_cons.mp below
    have different : key ≠ first.1 := (ne_of_lt before).symm
    rw [insert, if_neg different, if_neg (String.lt_asymm before), ih below, List.cons_append]

theorem Ascending.overlay_eq {map entries : List (String × α)}
    (ascending : Ascending (map ++ entries)) : Keyed.overlay map entries = map ++ entries := by
  induction entries generalizing map with
  | nil => exact (List.append_nil map).symm
  | cons first rest ih =>
    have below : ∀ entry ∈ map, entry.1 < first.1 := fun entry member =>
      (List.pairwise_append.mp ascending).2.2 entry member first List.mem_cons_self
    have moved : map ++ first :: rest = map ++ [first] ++ rest := by
      rw [List.append_assoc, List.singleton_append]
    rw [moved] at ascending ⊢
    exact (congrArg (Keyed.overlay · rest) (insert_of_forall_lt below first.2)).trans (ih ascending)

/-- A map is the map of its entries. -/
theorem Ascending.ofEntries_eq {map : List (String × α)} (ascending : Ascending map) :
    ofEntries map = map :=
  @Ascending.overlay_eq α [] map ascending

end Keyed

namespace Datum

mutual

/-- What the text of written rules says. -/
def ofRules : WrittenRules → Datum
  | .one rule => .text rule
  | .many rules => .list (rules.map .text)
  | .conditional condition branches defaults =>
    .table [
      (.text "condition", .text condition),
      (.text "branches", .table (ofBranches branches)),
      (.text "default", .list (defaults.map .text))]

/-- What the text of branches says. -/
def ofBranches : List (String × WrittenRules) → List (Datum × Datum)
  | [] => []
  | (key, rules) :: rest => (.text key, ofRules rules) :: ofBranches rest

end

theorem mapM_text? (texts : List String) : (texts.map Datum.text).mapM text? = some texts := by
  induction texts with
  | nil => rfl
  | cons text rest ih =>
    rw [List.map_cons, List.mapM_cons, ih]
    rfl

theorem entries?_ofBranches {branches : List (String × WrittenRules)}
    (each : ∀ entry ∈ branches, (ofRules entry.2).rules? = some entry.2) :
    entries? (ofBranches branches) = some branches := by
  induction branches with
  | nil => rfl
  | cons first rest ih =>
    obtain ⟨key, rules⟩ := first
    obtain ⟨first, rest⟩ := List.forall_mem_cons.mp each
    simp only [ofBranches, entries?, text?, first, ih rest, Option.bind_eq_bind, Option.bind_some]

/-- Of three fields that are given each once, each is found. -/
theorem once?_three (condition branches defaults : Datum) :
    once? .condition [(.condition, condition), (.branches, branches), (.defaults, defaults)] =
        some (some condition) ∧
      once? .branches [(.condition, condition), (.branches, branches), (.defaults, defaults)] =
        some (some branches) ∧
      once? .defaults [(.condition, condition), (.branches, branches), (.defaults, defaults)] =
        some (some defaults) :=
  ⟨rfl, rfl, rfl⟩

/-- A table with the fields of a conditional set, in their order, is read as one. -/
theorem rules?_table {condition : String} {inside listed : Datum}
    {branches : List (String × WrittenRules)} {defaults : List String}
    (reads : inside.branches? = some branches) (texts : listed.texts? = some defaults) :
    rules? (.table [(.text "condition", .text condition), (.text "branches", inside),
      (.text "default", listed)]) = some (.conditional condition branches defaults) := by
  have named : fields? [(.text "condition", .text condition), (.text "branches", inside),
      (.text "default", listed)] =
      some [(.condition, .text condition), (.branches, inside), (.defaults, listed)] := rfl
  have among : branchesAmong? [(.text "condition", .text condition), (.text "branches", inside),
      (.text "default", listed)] = some branches := by
    simp [branchesAmong?, field?, reads]
  obtain ⟨first, second, third⟩ := once?_three (.text condition) inside listed
  simp only [rules?, named, first, second, third, among, text?, texts, Option.bind_eq_bind,
    Option.bind_some, Option.getD_some]

/-- Written rules are read from the data that they write. -/
theorem rules?_ofRules {rules : WrittenRules} (mapped : rules.Mapped) :
    (ofRules rules).rules? = some rules := by
  induction mapped with
  | one rule => rw [ofRules, rules?]
  | many rules => simp only [ofRules, rules?, mapM_text?]
  | @conditional condition branches defaults ascending _ ih =>
    have inside : branches? (.table (ofBranches branches)) = some branches := by
      rw [branches?, entries?_ofBranches ih, Option.map_some, ascending.ofEntries_eq]
    exact rules?_table inside (mapM_text? defaults)

end Datum

namespace Json

mutual

theorem writes_rules (level : Nat) :
    (rules : WrittenRules) → Writes (writtenRules level rules) (.ofRules rules)
  | .one rule => writes_text rule
  | .many rules => writes_list level (writes_texts rules)
  | .conditional condition branches defaults =>
    writes_table level <|
      .cons ⟨rfl, writes_text condition⟩ <|
      .cons ⟨rfl, writes_table (level + 1) (writes_branches (level + 2) branches)⟩ <|
      .cons ⟨rfl, writes_list (level + 1) (writes_texts defaults)⟩ .nil

theorem writes_branches (level : Nat) : (branches : List (String × WrittenRules)) →
    List.Forall₂ WritesEntry (writtenBranches level branches) (Datum.ofBranches branches)
  | [] => .nil
  | (_, rules) :: rest => .cons ⟨rfl, writes_rules level rules⟩ (writes_branches level rest)

end

theorem reads_write (grammar : WrittenGrammar) :
    Reads (write grammar).toList {} ⟨.next (.table (Datum.ofBranches grammar)), []⟩ := by
  rw [write, String.toList_ofList]
  exact writes_table 0 (writes_branches 1 grammar) .value []

section

variable {grammar : WrittenGrammar} (ascending : Keyed.Ascending grammar)
  (mapped : ∀ entry ∈ grammar, entry.2.Mapped)
include ascending mapped

theorem grammar?_ofBranches : (Datum.table (Datum.ofBranches grammar)).grammar? = some grammar := by
  have entries : Datum.entries? (Datum.ofBranches grammar) = some grammar :=
    Datum.entries?_ofBranches fun entry member => Datum.rules?_ofRules (mapped entry member)
  rw [Datum.grammar?, entries, Option.map_some, ascending.ofEntries_eq]

/-- Written rules are read back from their JSON text if it nests no deeper than the reader
allows. -/
theorem rulesOfJson_write (shallow : nesting (write grammar) ≤ maxNesting) :
    rulesOfJson (write grammar) = .ok grammar := by
  rw [rulesOfJson, read?_eq_some (reads_write grammar) shallow, Option.bind_some,
    grammar?_ofBranches ascending mapped]

/-- If the JSON text of written rules is read at all, it is read as them. -/
theorem eq_of_rulesOfJson_write {rules : WrittenGrammar}
    (success : rulesOfJson (write grammar) = .ok rules) : rules = grammar := by
  obtain ⟨value, read, named⟩ := grammar?_of_rulesOfJson success
  rw [eq_of_read? (reads_write grammar) read, grammar?_ofBranches ascending mapped] at named
  exact (Option.some.inj named).symm

end

end Json

/-! ## Grammars -/

namespace RuleSet

mutual

/-- A set made from the written form of another shows the same. -/
theorem toWritten_ofWritten_toWritten (falloff : Float) :
    (set : RuleSet) → (ofWritten falloff set.toWritten).toWritten = set.toWritten
  | .plain _ => rfl
  | .conditional condition branches pool =>
    congrArg (WrittenRules.conditional condition · pool.alternatives)
      (branchesToWritten_ofWritten_toWritten falloff branches)

theorem branchesToWritten_ofWritten_toWritten (falloff : Float) :
    (branches : List (String × RuleSet)) →
    branchesToWritten (branchesOfWritten falloff (branchesToWritten branches)) =
      branchesToWritten branches
  | [] => rfl
  | (key, set) :: rest => congrArg₂ (fun rules others => (key, rules) :: others)
    (toWritten_ofWritten_toWritten falloff set) (branchesToWritten_ofWritten_toWritten falloff rest)

end

end RuleSet

namespace Grammar

theorem symbol?_ofWritten (rules : WrittenGrammar) (settings : Settings) (key : String) :
    (ofWritten rules settings).symbol? key =
      (rules.lookup key).map fun rules => .declared key (.ofWritten settings.falloff rules) := by
  rw [symbol?, ofWritten]
  induction rules with
  | nil => rfl
  | cons entry rest ih =>
    rw [List.map_cons, List.lookup_cons, List.lookup_cons]
    cases same : key == entry.1 with
    | true =>
      obtain rfl : key = entry.1 := beq_iff_eq.mp same
      rfl
    | false => exact ih

/-- What a grammar shows on its stacks declares a grammar that shows the same. -/
theorem toWritten_ofWritten_toWritten (grammar : Grammar) (settings : Settings) :
    (ofWritten grammar.toWritten settings).toWritten = grammar.toWritten := by
  have same (symbol : Symbol) :
      (RuleSet.ofWritten settings.falloff symbol.shown).toWritten = symbol.shown := by
    rw [Symbol.shown]
    cases symbol.top? with
    | none => rfl
    | some set => exact set.toWritten_ofWritten_toWritten settings.falloff
  rw [toWritten_eq_map, ofWritten, toWritten, List.map_map, List.map_map]
  exact List.map_congr_left fun entry _ => congrArg (Prod.mk entry.1) (same entry.2)

/-- A grammar that can be reached is written to JSON and read back, if the text nests no deeper than
the reader allows. The grammar that is read has the same rules on top of its stacks; a symbol whose
stack is empty comes back with an empty list. -/
theorem ofJson_toJson {grammar : Grammar} (reached : grammar.Reached)
    (shallow : Json.nesting grammar.toJson ≤ 127) :
    ∃ reloaded, ofJson grammar.toJson = .ok reloaded ∧
      reloaded.toWritten = grammar.toWritten ∧
      ∀ key symbol, grammar.symbol? key = some symbol → symbol.stack = [] →
        reloaded.symbol? key = some (.declared key
          (.ofAlternatives reloaded.settings.falloff [])) := by
  have read : rulesOfJson grammar.toJson = .ok grammar.toWritten :=
    Json.rulesOfJson_write reached.ordered.toWritten (mapped_toWritten reached.mapped) shallow
  refine ⟨.ofWritten grammar.toWritten {}, ?_, grammar.toWritten_ofWritten_toWritten {}, ?_⟩
  · rw [ofJson, read]
    rfl
  · intro key symbol found empty
    have shown : symbol.shown = .many [] := by
      rw [Symbol.shown, Symbol.top?, empty]
      rfl
    have listed : grammar.toWritten.lookup key = some (.many []) := by
      rw [toWritten_eq_map, Keyed.lookup_map, ← symbol?, found, Option.map_some, shown]
    rw [symbol?_ofWritten, listed]
    rfl

end Grammar

/-- Names and texts that JSON writes with escapes, and a conditional set in a branch of another. -/
def glossaryRules : WrittenGrammar := [
  ("\"sea\"\\", .conditional "#wind\n#"
    [("", .many []), ("nörd\t", .conditional "tide" [] ["\x01", "]"])] ["calm"]),
  ("gull", .one "cry")]

theorem mapped_glossaryRules : ∀ entry ∈ glossaryRules, entry.2.Mapped := by
  refine List.forall_mem_cons.mpr ⟨?_, List.forall_mem_singleton.mpr (.one "cry")⟩
  refine .conditional _ _ (List.pairwise_pair.mpr (by decide)) ?_
  refine List.forall_mem_cons.mpr ⟨.many [], List.forall_mem_singleton.mpr ?_⟩
  exact .conditional _ _ .nil (List.forall_mem_nil _)

/-- A push onto a new symbol, and a pop of a declared set. -/
def glossaryUses : List Operation :=
  [.push "mood" ["low"], .pop "gull"]

/-- A glossary in use. -/
def usedGlossary : Grammar :=
  (Operation.runAll ⟨.ofWritten (Keyed.ofEntries glossaryRules) {}, { stream := fun _ => default }⟩
    glossaryUses).2.grammar

theorem reached_usedGlossary : usedGlossary.Reached := by
  have mapped : ∀ entry ∈ Keyed.ofEntries glossaryRules, entry.2.Mapped :=
    Datum.mapped_ofEntries mapped_glossaryRules
  exact .used (Grammar.reached_ofWritten (.ofEntries glossaryRules {}) mapped) _ glossaryUses

theorem ofJson_toJson_glossary :
    usedGlossary.Reached ∧ Json.nesting usedGlossary.toJson = 5 ∧
      ∃ reloaded, Grammar.ofJson usedGlossary.toJson = .ok reloaded ∧
        reloaded.toWritten = usedGlossary.toWritten ∧
        reloaded.symbol? "gull" = some (.declared "gull"
          (.ofAlternatives reloaded.settings.falloff [])) := by
  have deep : Json.nesting usedGlossary.toJson = 5 := by
    rw [Json.nesting, Grammar.toJson, Json.write, String.toList_ofList]
    decide +kernel
  have shallow : Json.nesting usedGlossary.toJson ≤ 127 := deep.trans_le (by decide)
  have popped : ∃ gull, usedGlossary.symbol? "gull" = some gull ∧ gull.stack = [] := by
    have bare : (usedGlossary.symbol? "gull").map (·.stack.isEmpty) = some true := by decide +kernel
    obtain ⟨gull, found, empty⟩ := Option.map_eq_some_iff.mp bare
    exact ⟨gull, found, List.isEmpty_iff.mp empty⟩
  obtain ⟨gull, found, empty⟩ := popped
  obtain ⟨reloaded, read, same, back⟩ := Grammar.ofJson_toJson reached_usedGlossary shallow
  exact ⟨reached_usedGlossary, deep, reloaded, read, same, back "gull" gull found empty⟩

end TextGrammar
