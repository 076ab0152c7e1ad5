import TextGrammar.Proofs.Seams
import TextGrammar.Proofs.Segments

/-! # Expanding one text after another

A text that leaves the scan closed may be cut off the front of a rule: expanding it, and then what
follows it, comes to what the whole rule comes to. The two calls begin at depth zero each, so the
second finds the room that the rest of the rule had.
-/

namespace TextGrammar

open Engine Expansion

theorem gives_plainOf_iff {chars : List Char} {state after : Expansion} {text : String}
    {errors : List Problem} :
    Gives (Segment.plainOf chars) state text errors after ↔
      text = .ofList chars ∧ errors = [] ∧ after = state := by
  cases chars with
  | nil =>
    constructor
    · intro gives
      cases gives
      exact ⟨rfl, rfl, rfl⟩
    · rintro ⟨rfl, rfl, rfl⟩
      exact .nil after
  | cons ch rest => exact Gives.plain_iff

/-- Where one call ended, the next begins as if it had gone on. -/
theorem alike_opened {grammar : Grammar} {rolls : Rolls} {ended after : Expansion}
    {segments : List Segment} {text : String} {errors : List Problem}
    (gives : Gives segments (opened grammar rolls) text errors ended)
    (going : ended.tripped = false) (left : after.Alike Symbol.unplaced (Run.leave ended).2) :
    ended.Alike Symbol.unplaced (opened after.grammar after.rolls) where
  grammar := left.grammar.symm
  rolls := left.rolls.symm
  limit := by
    have settings : after.grammar.settings = ended.grammar.settings :=
      Grammar.settings_of_through left.grammar
    rw [gives.limit_eq]
    exact congrArg Settings.maxDepth (gives.settings_eq.symm.trans settings.symm)
  depth := gives.depth_eq
  tripped := going

/-- A text that can be scanned by itself may be expanded by itself: if a rule that begins with it
succeeds and does not hit the ceiling, then expanding the text first, and what follows it in a
second call, succeeds too, gives the text of the whole in two parts, and comes to the same rolls
and, apart from the places in the logs, the same grammar. -/
theorem expandWith_append {grammar : Grammar} {first second : String} {rolls : Rolls} {whole : Node}
    (noTag : .unclosedTag ∉ (Scanned.ofRule first).problems)
    (noBracket : .unclosedBracket ∉ (Scanned.ofRule first).problems)
    (noStray : .strayBracket ∉ (Scanned.ofRule first).problems)
    (paired : endsUnpaired first.toList = false)
    (succeeds : (grammar.expandWith (first ++ second) .nested rolls).1 = .ok whole)
    (untripped : (grammar.expandWith (first ++ second) .nested rolls).2.tripped = false) :
    let atOnce := (grammar.expandWith (first ++ second) .nested rolls).2
    let between := (grammar.expandWith first .nested rolls).2
    let after := (between.grammar.expandWith second .nested between.rolls).2
    ∃ front back, (grammar.expandWith first .nested rolls).1 = .ok front ∧
      (between.grammar.expandWith second .nested between.rolls).1 = .ok back ∧
      whole.text = front.text ++ back.text ∧ after.rolls = atOnce.rolls ∧
      after.grammar.unplaced = atOnce.grammar.unplaced := by
  intro atOnce between after
  obtain ⟨front, before, middle, back, segments, firstSegments, secondSegments⟩ :=
    segments_ofRule_append (closed_of_problems noTag noBracket noStray paired) second
  have room := room_of_untripped untripped
  -- The rule as a whole: what stands in front of the seam, the text across it, and the rest.
  obtain ⟨_, _, ended, gives, wholeYield, wholeLeft⟩ := gives_of_expandWith room succeeds
  rw [segments] at gives
  obtain ⟨_, early, _, _, _, givesFront, givesRest, rfl⟩ := gives.split
  obtain ⟨seam, _, _, late, _, givesPlain, givesBack, rfl⟩ := givesRest.split
  obtain ⟨rfl, _, rfl⟩ := gives_plainOf_iff.mp givesPlain
  have going := givesBack.going (wholeLeft.tripped.symm.trans untripped)
  -- The first call: what stands in front of the seam, and the text up to it.
  have givesFirst := givesFront.append (gives_plainOf_iff.mpr ⟨rfl, rfl, rfl⟩ :
    Gives (Segment.plainOf before) _ _ _ _)
  rw [← firstSegments] at givesFirst
  obtain ⟨frontNode, frontSucceeds, frontYield, frontLeft⟩ :=
    expandWith_of_gives room false givesFirst
  -- The second call: the text from the seam on, and the rest, from a state that looks the same.
  have next : seam.Alike Symbol.unplaced (opened between.grammar between.rolls) :=
    alike_opened givesFront going frontLeft
  obtain ⟨_, givesBack, same⟩ := givesBack.parallel next
  have givesSecond := (gives_plainOf_iff.mpr ⟨rfl, rfl, rfl⟩ :
    Gives (Segment.plainOf middle) _ _ _ _).append givesBack
  rw [← secondSegments] at givesSecond
  have roomAfter : 0 < (opened between.grammar between.rolls).limit := by
    rw [← next.limit, givesFront.limit_eq]
    exact room
  obtain ⟨backNode, backSucceeds, backYield, backLeft⟩ :=
    expandWith_of_gives roomAfter false givesSecond
  refine ⟨frontNode, backNode, frontSucceeds, backSucceeds, ?_, ?_, ?_⟩
  · have wholeText : whole.text = _ := congrArg Prod.fst wholeYield
    have frontText : frontNode.text = _ := congrArg Prod.fst frontYield
    have backText : backNode.text = _ := congrArg Prod.fst backYield
    rw [wholeText, frontText, backText]
    simp only [finished, Bool.false_eq_true, ↓reduceIte, String.ofList_append, String.append_assoc]
  · exact backLeft.rolls.trans (same.rolls.symm.trans wholeLeft.rolls.symm)
  · exact backLeft.grammar.trans (same.grammar.symm.trans wholeLeft.grammar.symm)

/-- A grammar that knows of the tide. -/
def shore : Grammar :=
  .ofWritten [("tide", .one "high")] {}

/-- Text runs across the seam, and what the first part pushes the second part finds. -/
theorem expandWith_append_shore :
    let rolls : Rolls := { stream := fun _ => default }
    let first := "[wind:calm]#tide# tide"
    let second := ", #wind# wind"
    (Scanned.ofRule first).problems = [] ∧ endsUnpaired first.toList = false ∧
      (shore.expandWith (first ++ second) .nested rolls).2.tripped = false ∧
      ∃ front back, (shore.expandWith first .nested rolls).1 = .ok front ∧
        ((shore.expandWith first .nested rolls).2.grammar.expandWith second .nested
          (shore.expandWith first .nested rolls).2.rolls).1 = .ok back ∧
        front.text ++ back.text = "high tide, calm wind" := by
  intro rolls first second
  have sound : (Scanned.ofRule first).problems = [] := by
    simp only [first]
    cbv
  have paired : endsUnpaired first.toList = false := by
    simp only [first]
    cbv
  have untripped : (shore.expandWith (first ++ second) .nested rolls).2.tripped = false := by
    simp only [first, second, rolls]
    cbv
  have text : (shore.expandWith (first ++ second) .nested rolls).1.toOption.map (·.text) =
      some "high tide, calm wind" := by
    simp only [first, second, rolls]
    cbv
  obtain ⟨whole, succeeds, wholeText⟩ := exists_ok_of_map text
  have untold (problem : Problem) : problem ∉ (Scanned.ofRule first).problems :=
    sound ▸ List.not_mem_nil
  obtain ⟨front, back, frontSucceeds, backSucceeds, parts, _⟩ :=
    expandWith_append (untold _) (untold _) (untold _) paired succeeds untripped
  exact ⟨sound, paired, untripped, front, back, frontSucceeds, backSucceeds,
    parts.symm.trans wholeText⟩

end TextGrammar
