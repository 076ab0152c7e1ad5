import TextGrammar.Proofs.Placeholders
import TextGrammar.Proofs.WellFormed

/-! # What a scan tells of brackets

A scan keeps one level for all brackets. It goes up where one opens and down where one closes, and
it is looked at when the rule ends. So the scan tells which kind of bracket there are too many of.
Brackets that nest are never reported. Brackets that do not nest are reported unless there are as
many of either kind: then one that closes nothing makes up for one that is never closed.
-/

namespace TextGrammar

namespace Cursor

variable {cursor : Cursor} {ch : Char}

theorem depth_step (unescaped : cursor.escaped = false) (ch : Char) :
    (cursor.step ch).depth = cursor.depth + [ch].count '[' - [ch].count ']' := by
  simp only [step, unescaped, Bool.false_eq_true, ↓reduceIte, List.count_singleton, beq_iff_eq]
  split_ifs with opens closes <;> simp_all

theorem depth_step_escaped (escaped : cursor.escaped = true) (ch : Char) :
    (cursor.step ch).depth = cursor.depth := by
  simp only [step, escaped, ↓reduceIte]

/-- The level that a text leads to is that of its brackets that no backslash takes out of
account. -/
theorem depth_after (unescaped : cursor.escaped = false) (chars : List Char) :
    (cursor.after chars).depth =
      cursor.depth + (unmarked chars).count '[' - (unmarked chars).count ']' := by
  induction chars using unmarked.induct generalizing cursor with
  | case1 => simp [after, unmarked]
  | case2 ch rest ih =>
    have marked : (cursor.step '\\').escaped = true := by
      rw [escaped_step, unescaped]
      rfl
    have next : ((cursor.step '\\').step ch).escaped = false := by
      rw [escaped_step, marked]
      rfl
    have level : ((cursor.step '\\').step ch).depth = cursor.depth := by
      rw [depth_step_escaped marked, depth_step unescaped]
      simp
    exact level ▸ ih next
  | case3 ch rest noMarker ih =>
    have here := depth_step unescaped ch
    rw [unmarked.eq_3 _ _ noMarker, ← List.singleton_append (l := unmarked rest),
      List.count_append, List.count_append]
    by_cases slash : ch = '\\'
    · -- A backslash gets here at the end of the text only.
      cases rest with
      | nil => simpa [after, unmarked] using here
      | cons next rest => exact (noMarker next rest slash rfl).elim
    · have next : (cursor.step ch).escaped = false := by
        rw [escaped_step, beq_false_of_ne slash, Bool.and_false]
      have goesOn := ih next
      simp only [after, List.foldl_cons] at goesOn ⊢
      omega

theorem strayBracket_mem_leftOpen (cursor : Cursor) :
    .strayBracket ∈ cursor.leftOpen ↔ cursor.depth < 0 := by
  simp [leftOpen]

end Cursor

/-- Something holds of every beginning of a list if it holds of the empty one and of those that
begin with the first element. -/
theorem forall_prefix_cons {α : Type} {first : α} {rest : List α} {holds : List α → Prop} :
    (∀ front, front <+: first :: rest → holds front) ↔
      holds [] ∧ ∀ front, front <+: rest → holds (first :: front) := by
  constructor
  · intro each
    exact ⟨each [] List.nil_prefix, fun front begins =>
      each _ (List.cons_prefix_cons.mpr ⟨rfl, begins⟩)⟩
  · rintro ⟨nothing, each⟩ front begins
    rcases List.prefix_cons_iff.mp begins with rfl | ⟨more, rfl, _⟩
    · exact nothing
    · exact each more (List.cons_prefix_cons.mp begins).2

/-- As many brackets close as open, with some opened before, and in no beginning do more close than
are open. Which kind opens and which one closes is given. -/
def Nests (opening closing : Char) (opened : Nat) (read : List Char) : Prop :=
  read.count closing = opened + read.count opening ∧
    ∀ front, front <+: read → front.count closing ≤ opened + front.count opening

instance (opening closing : Char) (opened : Nat) (read : List Char) :
    Decidable (Nests opening closing opened read) :=
  decidable_of_iff (read.count closing = opened + read.count opening ∧
      ∀ front ∈ read.inits, front.count closing ≤ opened + front.count opening)
    (and_congr Iff.rfl (forall_congr' fun front => imp_congr (List.mem_inits front read) Iff.rfl))

section

variable {opening closing : Char} {opened : Nat}

theorem nests_nil : Nests opening closing opened [] ↔ opened = 0 := by
  simp [Nests, eq_comm]

theorem nests_cons {next : Nat} {ch : Char} {rest : List Char}
    (level : opened + [ch].count opening = next + [ch].count closing) :
    Nests opening closing opened (ch :: rest) ↔ Nests opening closing next rest := by
  have counts (mark : Char) (more : List Char) :
      (ch :: more).count mark = [ch].count mark + more.count mark := by
    rw [← List.singleton_append, List.count_append]
  have nothing : [].count closing ≤ opened + [].count opening := Nat.zero_le _
  rw [Nests, Nests, forall_prefix_cons, and_iff_right nothing]
  refine and_congr ?_ (forall₂_congr fun front _ => ?_)
  · rw [counts closing rest, counts opening rest]
    omega
  · rw [counts closing front, counts opening front]
    omega

/-- Nothing closes where nothing is open. -/
theorem not_nests_stray (differ : opening ≠ closing) (rest : List Char) :
    ¬ Nests opening closing 0 (closing :: rest) := by
  rintro ⟨_, each⟩
  have first := each [closing] ⟨rest, rfl⟩
  rw [List.count_singleton_self, List.count_singleton, beq_false_of_ne differ.symm] at first
  exact absurd first (by decide)

end

/-- Brackets close as they should if those that no backslash takes out of account nest. -/
theorem bracketsClose_iff {opened : Nat} {chars : List Char} :
    bracketsClose opened chars = true ↔ Nests '[' ']' opened (unmarked chars) := by
  induction opened, chars using bracketsClose.induct with
  | case1 opened =>
    rw [bracketsClose, unmarked, nests_nil, beq_iff_eq]
  | case2 opened ch rest ih => exact ih
  | case3 opened rest ih =>
    rw [bracketsClose, ih]
    apply (nests_cons _).symm
    rfl
  | case4 rest =>
    exact iff_of_false Bool.false_ne_true (not_nests_stray (by decide) (unmarked rest))
  | case5 opened rest ih =>
    rw [bracketsClose, ih]
    apply (nests_cons _).symm
    rfl
  | case6 opened ch rest noMarker noOpening noStray noClosing ih =>
    have closing : ch ≠ ']' := by
      rintro rfl
      cases opened with
      | zero => exact noStray rfl rfl
      | succ opened => exact noClosing opened rfl rfl
    have counts (mark : Char) (other : ch ≠ mark) : [ch].count mark = 0 :=
      List.count_eq_zero_of_not_mem fun same => other (List.mem_singleton.mp same).symm
    rw [bracketsClose.eq_6 _ _ _ noMarker noOpening noStray noClosing, ih,
      unmarked.eq_3 _ _ noMarker]
    apply (nests_cons _).symm
    rw [counts '[' noOpening, counts ']' closing]

/-- Too many brackets of a kind are reported, and nothing else of brackets is. So none is reported
if brackets nest, and the report is missing where they do not nest exactly if there are as many of
either kind, and some beginning closes more than it opens. -/
theorem brackets_told_iff (rule : String) :
    let read := unmarked rule.toList
    let problems := (Scanned.ofRule rule).problems
    let told := .unclosedBracket ∈ problems ∨ .strayBracket ∈ problems
    let nested := bracketsClose 0 rule.toList = true
    (.unclosedBracket ∈ problems ↔ read.count ']' < read.count '[') ∧
      (.strayBracket ∈ problems ↔ read.count '[' < read.count ']') ∧
      (nested → ¬ told) ∧
      ((told ↔ ¬ nested) ↔ ¬ (read.count '[' = read.count ']' ∧
        ∃ front, front <+: read ∧ front.count '[' < front.count ']')) := by
  intro read problems told nested
  have level : (Reading.upTo rule.toList).cursor.depth = read.count '[' - read.count ']' := by
    rw [Reading.cursor_upTo, Cursor.depth_after rfl, zero_add]
  have unclosed : .unclosedBracket ∈ problems ↔ read.count ']' < read.count '[' := by
    rw [mem_problems_ofRule rfl, Cursor.unclosedBracket_mem_leftOpen, level]
    omega
  have stray : .strayBracket ∈ problems ↔ read.count '[' < read.count ']' := by
    rw [mem_problems_ofRule rfl, Cursor.strayBracket_mem_leftOpen, level]
    omega
  have uneven : told ↔ read.count '[' ≠ read.count ']' := by
    simp only [told, unclosed, stray]
    omega
  have nests : nested ↔ read.count '[' = read.count ']' ∧
      ¬ ∃ front, front <+: read ∧ front.count '[' < front.count ']' := by
    refine bracketsClose_iff.trans ?_
    rw [Nests, zero_add, eq_comm]
    refine and_congr Iff.rfl ?_
    simp only [not_exists, not_and, Nat.not_lt, zero_add]
    rfl
  refine ⟨unclosed, stray, ?_, ?_⟩
  · intro closes reported
    exact uneven.mp reported (nests.mp closes).1
  · rw [uneven, nests]
    by_cases even : read.count '[' = read.count ']'
    · rw [and_iff_right even, and_iff_right even, not_not]
      exact iff_false_left fun uneven => uneven even
    · have off {other : Prop} : ¬ (read.count '[' = read.count ']' ∧ other) :=
        fun both => even both.1
      exact iff_of_true (iff_of_true even off) off

/-- A bracket that closes nothing, and then one that is never closed. -/
theorem crossed_brackets_untold :
    (Scanned.ofRule "][").problems = [] ∧ ¬ bracketsClose 0 "][".toList = true := by
  decide

end TextGrammar
