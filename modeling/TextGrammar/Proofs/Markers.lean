import TextGrammar.Proofs.Finished

/-! # Markers between texts

Escape markers are resolved once, in the text of the whole tree, and not in each of the texts it is
put together from. The difference shows where a text ends in a backslash without a partner and the
next begins with one: the two become partners, so the second is shown, and what it stood before is
no longer marked. Nothing else differs.
-/

namespace TextGrammar

open Engine Expansion

/-- A text begins with a backslash without a partner: with an odd number of backslashes. -/
def beginsUnpaired (chars : List Char) : Bool :=
  (chars.takeWhile (· == '\\')).length % 2 == 1

theorem beginsUnpaired_slash (rest : List Char) :
    beginsUnpaired ('\\' :: rest) = !beginsUnpaired rest := by
  simp only [beginsUnpaired, List.takeWhile_cons, beq_self_eq_true, ↓reduceIte, List.length_cons]
  generalize (rest.takeWhile (· == '\\')).length = count
  rw [Bool.eq_iff_iff, Bool.not_eq_true', beq_iff_eq, beq_eq_false_iff_ne]
  omega

section

variable {ch : Char} (other : ch ≠ '\\') (rest : List Char)
include other

theorem beginsUnpaired_cons : beginsUnpaired (ch :: rest) = false := by
  simp [beginsUnpaired, other]

theorem unescapeChars_cons : unescapeChars (ch :: rest) = ch :: unescapeChars rest := by
  simp [unescapeChars, other]

end

/-- A backslash before a text is dropped, unless the text begins with one that becomes its
partner. -/
theorem unescapeChars_slash (chars : List Char) :
    unescapeChars ('\\' :: chars) =
      (if beginsUnpaired chars then ['\\'] else []) ++ unescapeChars chars := by
  induction chars with
  | nil => rfl
  | cons ch rest ih =>
    by_cases slash : ch = '\\'
    · subst slash
      rw [unescapeChars, beginsUnpaired_slash, ih]
      cases beginsUnpaired rest <;> rfl
    · rw [beginsUnpaired_cons slash]
      simp [unescapeChars, slash]

/-- The markers of a text that is cut are resolved in its parts, but for a marker that was cut off
its partner: of these two the second is shown. -/
theorem unescapeChars_append (first second : List Char) :
    unescapeChars (first ++ second) = unescapeChars first ++
      ((if endsUnpaired first && beginsUnpaired second then ['\\'] else []) ++
        unescapeChars second) := by
  induction first using unescapeChars.induct with
  | case1 rest ih =>
    rw [List.cons_append, List.cons_append, unescapeChars, ih, endsUnpaired_marked, unescapeChars,
      List.cons_append]
  | case2 rest single ih =>
    cases rest with
    | nil => exact unescapeChars_slash second
    | cons ch rest =>
      have other : ch ≠ '\\' := fun same => single rest (congrArg (· :: rest) same)
      rw [endsUnpaired_marked, ← endsUnpaired_cons other]
      simp only [List.cons_append, unescapeChars_slash, beginsUnpaired_cons other,
        Bool.false_eq_true, ↓reduceIte, List.nil_append]
      exact ih
  | case3 ch rest _ other ih =>
    rw [endsUnpaired_cons other, List.cons_append, unescapeChars_cons other, ih,
      unescapeChars_cons other, List.cons_append]
  | case4 => rfl

/-- Somewhere in a list of texts a marker finds its partner in another text: what stands before a
text ends in a backslash without a partner, and the text begins with one. -/
def MarkersMeet (texts : List String) : Prop :=
  ∃ front text back, texts = front ++ text :: back ∧
    endsUnpaired (String.join front).toList = true ∧ beginsUnpaired text.toList = true

/-- Texts of which none ends unpaired come to one that does not either. -/
theorem endsUnpaired_join {texts : List String}
    (paired : ∀ text ∈ texts, endsUnpaired text.toList = false) :
    endsUnpaired (String.join texts).toList = false := by
  induction texts with
  | nil => rfl
  | cons text rest ih =>
    obtain ⟨first, others⟩ := List.forall_mem_cons.mp paired
    have unescaped : (Cursor.after {} text.toList).escaped = false :=
      (Cursor.escaped_after rfl text.toList).trans first
    rw [String.join_cons, String.toList_append, endsUnpaired_append _ unescaped, ih others]

/-- Where no text but the last ends unpaired, no marker finds its partner in another text. -/
theorem not_markersMeet_of_paired {texts : List String}
    (paired : ∀ text ∈ texts.dropLast, endsUnpaired text.toList = false) : ¬ MarkersMeet texts := by
  rintro ⟨front, text, back, rfl, ends, _⟩
  rw [List.dropLast_append_cons] at paired
  rw [endsUnpaired_join (List.forall_mem_append.mp paired).1] at ends
  contradiction

theorem unescape_append (first second : String) :
    unescape (first ++ second) = unescape first ++
      ((if endsUnpaired first.toList && beginsUnpaired second.toList then "\\" else "") ++
        unescape second) := by
  rw [unescape, String.toList_append, unescapeChars_append, String.ofList_append,
    String.ofList_append]
  cases endsUnpaired first.toList && beginsUnpaired second.toList <;> rfl

theorem length_unescape_append (first second : String) :
    (unescape first).length + (unescape second).length ≤ (unescape (first ++ second)).length := by
  rw [unescape_append, String.length_append, String.length_append]
  omega

theorem length_join_unescape (texts : List String) :
    (String.join (texts.map unescape)).length ≤ (unescape (String.join texts)).length := by
  induction texts with
  | nil => exact Nat.le_refl _
  | cons text rest ih =>
    have parts := length_unescape_append text (String.join rest)
    rw [List.map_cons, String.join_cons, String.join_cons, String.length_append]
    omega

theorem length_lt_of_markersMeet {texts : List String} (meet : MarkersMeet texts) :
    (String.join (texts.map unescape)).length < (unescape (String.join texts)).length := by
  obtain ⟨front, text, back, rfl, ends, begins⟩ := meet
  have before := length_join_unescape front
  have behind := length_join_unescape back
  have later := length_unescape_append (String.join front ++ text) (String.join back)
  have seam : (unescape (String.join front ++ text)).length =
      (unescape (String.join front)).length + (1 + (unescape text).length) := by
    rw [unescape_append, ends, begins, String.length_append, String.length_append]
    rfl
  simp only [List.map_append, List.map_cons, String.join_append, String.join_cons,
    String.length_append, ← String.append_assoc] at *
  omega

/-- Resolving the markers of some texts together comes to the same as resolving those of each text
alone, exactly if no marker finds its partner in another text. -/
theorem unescape_join_iff {texts : List String} :
    unescape (String.join texts) = String.join (texts.map unescape) ↔ ¬ MarkersMeet texts := by
  constructor
  · intro same meet
    have shorter := length_lt_of_markersMeet meet
    rw [same] at shorter
    exact Nat.lt_irrefl _ shorter
  · intro apart
    induction texts using List.reverseRecOn with
    | nil => rfl
    | append_singleton front text ih =>
      have seam : (endsUnpaired (String.join front).toList && beginsUnpaired text.toList) =
          false := by
        rw [Bool.and_eq_false_iff, ← Bool.not_eq_true, ← Bool.not_eq_true, ← not_and_or]
        exact fun ⟨ends, begins⟩ => apart ⟨front, text, [], rfl, ends, begins⟩
      have before : ¬ MarkersMeet front := by
        rintro ⟨early, inner, back, rfl, ends, begins⟩
        refine apart ⟨early, inner, back ++ [text], ?_, ends, begins⟩
        rw [List.append_assoc, List.cons_append]
      rw [String.join_append, List.map_append, String.join_append, ← ih before]
      simp only [List.map_cons, List.map_nil, String.join_cons, String.join_nil,
        String.append_empty, unescape_append, seam, Bool.false_eq_true, ↓reduceIte,
        String.empty_append]

namespace Node

/-- Resolving the markers of a tree changes its text, and no other node. -/
theorem plainTexts_resolveEscapes (root : Node) :
    plainTexts root.resolveEscapes.preorder = plainTexts root.preorder := by
  rw [preorder_eq, preorder_eq, plainTexts, plainTexts, List.filter_cons, List.filter_cons]
  change (if root.kind == .segment .plain then _ else _ : List Node).map _ = _
  split <;> rfl

theorem unmodified_of_resolveEscapes {root : Node} (unmodified : root.resolveEscapes.Unmodified) :
    root.Unmodified := by
  rw [Unmodified, preorder_eq, List.forall_mem_cons] at unmodified ⊢
  exact unmodified

end Node

/-- Where the text of a tree is finished, the markers in its plain texts are resolved in what these
come to together. -/
theorem text_expandRule {rule : String} {state : Expansion} {root : Node}
    (succeeds : (Run.expandRule rule {} state).1 = .ok root) (sound : root.errors = [])
    (unmodified : root.Unmodified) :
    root.text = unescape (String.join (plainTexts root.preorder)) := by
  have spells := spells_expandNode (.root rule) state (Node.unwritten_root rule)
  simp only [Run.expandRule, Run.expandOnce, Bool.false_eq_true, ↓reduceIte, Run.bind_apply,
    Run.pure_apply] at succeeds
  generalize expandNode (.root rule) state = outcome at spells succeeds
  cases fatal : outcome.1.fatal with
  | some tag =>
    simp only [Outcome.result, fatal] at succeeds
    contradiction
  | none =>
    simp only [Outcome.result, fatal] at succeeds
    cases succeeds
    have spelled := spells fatal sound (Node.unmodified_of_resolveEscapes unmodified)
    rw [Node.plainTexts_resolveEscapes, ← spelled.joined]
    rfl

/-- The text of an expansion without problems and without modifiers has the markers resolved that
stand in its plain texts, in their order. Each marker acts on the text it was written in, and the
whole comes to what the plain texts come to one by one, exactly if no marker finds its partner in a
later text. None does where no plain text but the last ends in a backslash without a partner. -/
theorem expand_resolves_markers {grammar : Grammar} {rule : String} {rolls : Rolls} {root : Node}
    (resolves : grammar.settings.resolveEscapes = true)
    (succeeds : (grammar.expand rule rolls).1 = .ok root) (sound : root.errors = [])
    (unmodified : root.Unmodified) :
    root.text = unescape (String.join (plainTexts root.preorder)) ∧
      (root.text = String.join ((plainTexts root.preorder).map unescape) ↔
        ¬ MarkersMeet (plainTexts root.preorder)) ∧
      ((∀ text ∈ (plainTexts root.preorder).dropLast, endsUnpaired text.toList = false) →
        root.text = String.join ((plainTexts root.preorder).map unescape)) := by
  rw [Grammar.expand, resolves] at succeeds
  have whole : root.text = unescape (String.join (plainTexts root.preorder)) :=
    text_expandRule succeeds sound unmodified
  rw [whole]
  exact ⟨rfl, unescape_join_iff, fun paired =>
    unescape_join_iff.mpr (not_markersMeet_of_paired paired)⟩

/-- A grammar with a rule that ends in a backslash. -/
def cliff : Grammar :=
  .ofWritten [("edge", .one "x\\")] {}

/-- The mark is shown as it is, and the backslashes at the ends of the two rules are dropped, as no
text after them begins with one. -/
theorem expand_resolves_markers_cliff :
    let rolls : Rolls := { stream := fun _ => default }
    let texts := ["\\#", "x\\", " ", "x\\"]
    cliff.settings.resolveEscapes = true ∧
      ∃ root, (cliff.expand "\\##edge# #edge#" rolls).1 = .ok root ∧ root.errors = [] ∧
        root.Unmodified ∧ plainTexts root.preorder = texts ∧ ¬ MarkersMeet texts ∧
        root.text = "#x x" := by
  intro rolls texts
  have seen : (cliff.expand "\\##edge# #edge#" rolls).1.toOption.map
      (fun root => (root.errors, decide root.Unmodified, plainTexts root.preorder)) =
        some ([], true, texts) := by
    decide +kernel
  obtain ⟨root, succeeds, told⟩ := exists_ok_of_map seen
  obtain ⟨sound, rest⟩ := Prod.mk.inj told
  obtain ⟨decided, leaves⟩ := Prod.mk.inj rest
  have unmodified := of_decide_eq_true decided
  obtain ⟨whole, apart, _⟩ := expand_resolves_markers rfl succeeds sound unmodified
  rw [leaves] at whole apart
  have text : root.text = "#x x" := whole.trans (by decide +kernel)
  refine ⟨rfl, root, succeeds, sound, unmodified, leaves, apart.mp (text.trans ?_), text⟩
  decide +kernel

/-- The backslash at the end of the rule becomes the partner of the one before the mark: it is the
backslash that is shown, where each text by itself shows none. -/
theorem marker_reaches_next_text :
    ¬ ∀ (grammar : Grammar) (rule : String) (rolls : Rolls) (root : Node),
      grammar.settings.resolveEscapes = true → (grammar.expand rule rolls).1 = .ok root →
        root.errors = [] → root.Unmodified →
          root.text = String.join ((plainTexts root.preorder).map unescape) := by
  intro separate
  have seen : (cliff.expand "#edge#\\#" { stream := fun _ => default }).1.toOption.map
      (fun root => (root.text, root.errors, decide root.Unmodified, plainTexts root.preorder)) =
        some ("x\\#", [], true, ["x\\", "\\#"]) := by
    decide +kernel
  obtain ⟨root, succeeds, told⟩ := exists_ok_of_map seen
  obtain ⟨text, rest⟩ := Prod.mk.inj told
  obtain ⟨sound, rest⟩ := Prod.mk.inj rest
  obtain ⟨decided, leaves⟩ := Prod.mk.inj rest
  have alone := separate cliff _ _ root rfl succeeds sound (of_decide_eq_true decided)
  rw [text, leaves] at alone
  exact absurd alone (by decide +kernel)

end TextGrammar
