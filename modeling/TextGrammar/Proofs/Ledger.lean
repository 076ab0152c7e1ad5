import Mathlib
import TextGrammar.RuleSet

/-! # A ledger of one stack

While a tag is expanded, sets are pushed onto a stack and taken off again, by the head of the tag
and by others. The ledger marks the sets that the head pushed and keeps what the tag takes off at
its end. A second reading of the same moves does without the stack: it counts what lies over the
sets of the head. The two agree on whether the tag takes off exactly what its head pushed.
-/

namespace TextGrammar

/-- A move on a stack while a tag is expanded. -/
inductive Move
  /-- The head of the tag pushes. -/
  | own (set : RuleSet)
  /-- Somebody else pushes. -/
  | free (set : RuleSet)
  /-- Somebody else takes off what is on top. -/
  | take
  /-- The end of the tag takes off what is on top. -/
  | undo

/-- Whether the head of the tag makes a move. -/
def Move.owns : Move → Bool
  | .own _ => true
  | _ => false

/-- Moves before the end of the tag, of which its head makes so many. -/
structure Inside (moves : List Move) (made : Nat) : Prop where
  others : ∀ move ∈ moves, move ≠ .undo
  count : moves.countP Move.owns = made

namespace Inside

theorem nil : Inside [] 0 where
  others := List.forall_mem_nil _
  count := rfl

theorem own (set : RuleSet) : Inside [.own set] 1 where
  others := List.forall_mem_singleton.mpr nofun
  count := rfl

theorem free (set : RuleSet) : Inside [.free set] 0 where
  others := List.forall_mem_singleton.mpr nofun
  count := rfl

theorem append {first second : List Move} {made more : Nat} (left : Inside first made)
    (right : Inside second more) : Inside (first ++ second) (made + more) where
  others := List.forall_mem_append.mpr ⟨left.others, right.others⟩
  count := by rw [List.countP_append, left.count, right.count]

theorem takes {moves : List Move} (takes : ∀ move ∈ moves, move = .take) : Inside moves 0 where
  others move member undo := nomatch (takes move member).symm.trans undo
  count := List.countP_eq_zero.mpr fun move member => by rw [takes move member]; exact nofun

end Inside

/-- A set on a stack, and whether the head of the tag pushed it. -/
structure Held where
  own : Bool
  set : RuleSet

/-- What happened to a stack: the sets on it, those the head pushed and those the end took off, each
list with the latest first except the last. -/
structure Ledger where
  stack : List Held
  made : List Held := []
  undone : List Held := []

namespace Ledger

/-- A stack before the tag. -/
def opening (sets : List RuleSet) : Ledger :=
  { stack := sets.map (Held.mk false) }

def move (ledger : Ledger) : Move → Ledger
  | .own set =>
    { ledger with
      stack := ⟨true, set⟩ :: ledger.stack
      made := ⟨true, set⟩ :: ledger.made }
  | .free set => { ledger with stack := ⟨false, set⟩ :: ledger.stack }
  | .take => { ledger with stack := ledger.stack.tail }
  | .undo =>
    { ledger with
      stack := ledger.stack.tail
      undone := ledger.undone ++ ledger.stack.head?.toList }

/-- The sets on the stack. -/
def sets (ledger : Ledger) : List RuleSet :=
  ledger.stack.map (·.set)

theorem sets_opening (sets : List RuleSet) : (opening sets).sets = sets := by
  rw [Ledger.sets, opening, List.map_map]
  exact List.map_id sets

/-- The end of the tag took off exactly what its head pushed, and nothing of it is left. -/
structure Exact (ledger : Ledger) : Prop where
  undone : ledger.undone.Perm ledger.made
  gone : ∀ held ∈ ledger.stack, held.own = false

/-- What the head pushed lies together, under some sets of others. -/
def Under (ledger : Ledger) (count : Nat) : Prop :=
  ∃ above below, ledger.stack = above ++ (ledger.made ++ below) ∧ above.length = count ∧
    (∀ held ∈ above, held.own = false) ∧ ∀ held ∈ below, held.own = false

/-- The marks are right: what the head pushed and nobody took off is still there, in order. -/
structure Sound (ledger : Ledger) : Prop where
  made : ∀ held ∈ ledger.made, held.own = true
  stack : (ledger.stack.filter (·.own)).Sublist ledger.made

theorem sound_opening (sets : List RuleSet) : (opening sets).Sound where
  made _ member := absurd member List.not_mem_nil
  stack := by
    have none : (opening sets).stack.filter (·.own) = [] := by
      rw [List.filter_eq_nil_iff]
      intro held member
      obtain ⟨set, _, rfl⟩ := List.mem_map.mp member
      exact Bool.false_ne_true
    rw [none]
    exact List.nil_sublist _

theorem Sound.move {ledger : Ledger} (sound : ledger.Sound) (move : Move) :
    (ledger.move move).Sound := by
  have tail : (ledger.stack.tail.filter (·.own)).Sublist ledger.made :=
    ((List.tail_sublist _).filter _).trans sound.stack
  cases move with
  | own set =>
    refine ⟨List.forall_mem_cons.mpr ⟨rfl, sound.made⟩, ?_⟩
    simpa only [Ledger.move, List.filter_cons_of_pos] using sound.stack.cons_cons _
  | free set => exact ⟨sound.made, sound.stack⟩
  | take | undo => exact ⟨sound.made, tail⟩

theorem Sound.moves {ledger : Ledger} (sound : ledger.Sound) (moves : List Move) :
    (moves.foldl Ledger.move ledger).Sound := by
  induction moves generalizing ledger with
  | nil => exact sound
  | cons first rest ih => exact ih (sound.move first)

theorem length_made (moves : List Move) (ledger : Ledger) :
    (moves.foldl move ledger).made.length = moves.countP Move.owns + ledger.made.length := by
  induction moves generalizing ledger with
  | nil => simp only [List.foldl_nil, List.countP_nil, Nat.zero_add]
  | cons first rest ih =>
    rw [List.foldl_cons, ih, List.countP_cons]
    cases first <;>
      simp only [move, Move.owns, List.length_cons, ↓reduceIte, Bool.false_eq_true] <;>
      omega

theorem undone_of_others {moves : List Move} (others : ∀ move ∈ moves, move ≠ .undo)
    (ledger : Ledger) : (moves.foldl move ledger).undone = ledger.undone := by
  induction moves generalizing ledger with
  | nil => rfl
  | cons first rest ih =>
    obtain ⟨other, others⟩ := List.forall_mem_cons.mp others
    rw [List.foldl_cons, ih others]
    cases first <;> first | rfl | contradiction

/-- As many undoings as there are sets to take off take off the topmost. -/
theorem foldl_undo (count : Nat) (ledger : Ledger) :
    (List.replicate count Move.undo).foldl move ledger =
      { ledger with
        stack := ledger.stack.drop count
        undone := ledger.undone ++ ledger.stack.take count } := by
  induction count generalizing ledger with
  | zero => simp only [List.replicate_zero, List.foldl_nil, List.drop_zero, List.take_zero,
      List.append_nil]
  | succ count ih =>
    rw [List.replicate_succ, List.foldl_cons, ih]
    cases stack : ledger.stack with
    | nil => simp only [move, stack, List.tail_nil, List.drop_nil, List.take_nil, List.head?_nil,
        Option.toList_none, List.append_nil]
    | cons top below =>
      simp only [move, stack, List.tail_cons, List.head?_cons, Option.toList_some,
        List.drop_succ_cons, List.take_succ_cons, List.append_assoc, List.singleton_append]

section Under

variable {ledger : Ledger} {count : Nat}

theorem filter_own (sound : ledger.Sound) {above below : List Held}
    (foreign : ∀ held ∈ above, held.own = false) (rest : ∀ held ∈ below, held.own = false) :
    (above ++ (ledger.made ++ below)).filter (·.own) = ledger.made := by
  have none {others : List Held} (foreign : ∀ held ∈ others, held.own = false) :
      others.filter (·.own) = [] :=
    List.filter_eq_nil_iff.mpr fun held member => Bool.eq_false_iff.mp (foreign held member)
  rw [List.filter_append, List.filter_append, none foreign, none rest,
    List.filter_eq_self.mpr sound.made, List.nil_append, List.append_nil]

/-- Sets cannot be on top and under others at once. -/
theorem Under.not_on_top (sound : ledger.Sound) (some : ledger.made ≠ [])
    (under : ledger.Under (count + 1)) : ¬ ledger.Under 0 := by
  rintro ⟨none, below, onTop, length, _⟩
  obtain ⟨above, _, stack, covered, foreign, _⟩ := under
  obtain ⟨top, made, cons⟩ := List.exists_cons_of_ne_nil some
  obtain ⟨cover, above, rfl⟩ := List.exists_cons_of_length_eq_add_one covered
  rw [stack, List.length_eq_zero_iff.mp length, List.nil_append, cons] at onTop
  have owned := sound.made top (cons ▸ List.mem_cons_self)
  have same : cover = top := (List.cons.inj onTop).1
  rw [← same, (List.forall_mem_cons.mp foreign).1] at owned
  contradiction

theorem under_free (set : RuleSet) (under : ledger.Under count) :
    (ledger.move (.free set)).Under (count + 1) := by
  obtain ⟨above, below, stack, length, foreign, rest⟩ := under
  refine ⟨⟨false, set⟩ :: above, below, ?_, congrArg (· + 1) length,
    List.forall_mem_cons.mpr ⟨rfl, foreign⟩, rest⟩
  simp only [move, stack, List.cons_append]

/-- Under a set of another, the sets of the head lie as they lay before it was pushed. -/
theorem under_of_free (sound : ledger.Sound) (some : ledger.made ≠ []) {set : RuleSet}
    (under : (ledger.move (.free set)).Under count) : ∃ less, ledger.Under less := by
  obtain ⟨above, below, stack, length, foreign, rest⟩ := under
  cases above with
  | nil =>
    obtain ⟨top, made, cons⟩ := List.exists_cons_of_ne_nil some
    simp only [move, cons, List.nil_append, List.cons_append, List.cons.injEq] at stack
    have owned := sound.made top (cons ▸ List.mem_cons_self)
    rw [← stack.1] at owned
    contradiction
  | cons top above =>
    simp only [move, List.cons_append, List.cons.injEq] at stack
    exact ⟨_, above, below, stack.2, rfl, (List.forall_mem_cons.mp foreign).2, rest⟩

theorem under_own (set : RuleSet) (under : ledger.Under 0) : (ledger.move (.own set)).Under 0 := by
  obtain ⟨above, below, stack, length, _, rest⟩ := under
  rw [List.length_eq_zero_iff.mp length, List.nil_append] at stack
  refine ⟨[], below, ?_, rfl, List.forall_mem_nil _, rest⟩
  simp only [move, stack, List.cons_append, List.nil_append]

/-- A push of the head joins the others only when these are on top. -/
theorem under_of_own {set : RuleSet} (under : (ledger.move (.own set)).Under count) :
    ledger.Under 0 := by
  obtain ⟨above, below, stack, length, foreign, rest⟩ := under
  cases above with
  | nil =>
    simp only [move, List.nil_append, List.cons_append, List.cons.injEq, true_and] at stack
    exact ⟨[], below, stack, rfl, List.forall_mem_nil _, rest⟩
  | cons top above =>
    simp only [move, List.cons_append, List.cons.injEq] at stack
    have owned := (List.forall_mem_cons.mp foreign).1
    rw [← stack.1] at owned
    contradiction

theorem under_take (under : ledger.Under (count + 1)) : (ledger.move .take).Under count := by
  obtain ⟨above, below, stack, length, foreign, rest⟩ := under
  obtain ⟨top, above, rfl⟩ := List.exists_cons_of_length_eq_add_one length
  refine ⟨above, below, ?_, Nat.add_right_cancel length, (List.forall_mem_cons.mp foreign).2, rest⟩
  simp only [move, stack, List.cons_append, List.tail_cons]

/-- Once a set of the head is taken off by another, the rest never makes up for it: what lies
together after a set was taken off lay together under that set. -/
theorem under_of_take (sound : ledger.Sound) (some : ledger.made ≠ [])
    (under : (ledger.move .take).Under count) : ledger.Under (count + 1) := by
  obtain ⟨above, below, stack, length, foreign, rest⟩ := under
  cases whole : ledger.stack with
  | nil =>
    rw [move, whole, List.tail_nil, eq_comm] at stack
    exact absurd (List.append_eq_nil_iff.mp (List.append_eq_nil_iff.mp stack).2).1 some
  | cons top others =>
    simp only [move, whole, List.tail_cons] at stack
    refine ⟨top :: above, below, ?_, congrArg (· + 1) length,
      List.forall_mem_cons.mpr ⟨?_, foreign⟩, rest⟩
    · rw [whole, stack, List.cons_append]
    · cases own : top.own with
      | false => rfl
      | true =>
        have kept := sound.stack.length_le
        rw [whole, List.filter_cons_of_pos own, stack, filter_own sound foreign rest,
          List.length_cons] at kept
        exact absurd kept (Nat.not_succ_le_self _)

end Under

end Ledger

/-- How the sets of the head stand, read off the moves alone. -/
inductive Standing
  /-- The head has pushed nothing. -/
  | unused
  /-- What it pushed lies together, under some sets of others. -/
  | under (count : Nat)
  /-- A set of another lies between, or another took a set of the head off. -/
  | disturbed
deriving DecidableEq, Repr

namespace Standing

def move : Standing → Move → Standing
  | .unused, .own _ => .under 0
  | .under 0, .own _ => .under 0
  | .under (_ + 1), .own _ => .disturbed
  | .under count, .free _ => .under (count + 1)
  | .under 0, .take => .disturbed
  | .under (count + 1), .take => .under count
  | standing, _ => standing

/-- Whether the sets of the head, if it pushed any, are on top. -/
def Settled (standing : Standing) : Prop :=
  standing = .unused ∨ standing = .under 0

/-- A standing is right about a ledger. -/
def Tells (ledger : Ledger) : Standing → Prop
  | .unused => ledger.made = [] ∧ ∀ held ∈ ledger.stack, held.own = false
  | .under count => ledger.made ≠ [] ∧ ledger.Under count
  | .disturbed => ledger.made ≠ [] ∧ ∀ count, ¬ ledger.Under count

theorem Tells.move {ledger : Ledger} (sound : ledger.Sound) {standing : Standing}
    (tells : standing.Tells ledger) {move : Move} (other : move ≠ .undo) :
    (standing.move move).Tells (ledger.move move) := by
  cases standing with
  | unused =>
    obtain ⟨made, foreign⟩ := tells
    cases move with
    | own set =>
      have onTop : ledger.Under 0 :=
        ⟨[], ledger.stack, by rw [made]; rfl, rfl, List.forall_mem_nil _, foreign⟩
      exact ⟨List.cons_ne_nil _ _, Ledger.under_own set onTop⟩
    | free set => exact ⟨made, List.forall_mem_cons.mpr ⟨rfl, foreign⟩⟩
    | take => exact ⟨made, fun held member => foreign held (List.mem_of_mem_tail member)⟩
    | undo => contradiction
  | under count =>
    obtain ⟨some, under⟩ := tells
    cases count with
    | zero =>
      cases move with
      | own set => exact ⟨List.cons_ne_nil _ _, Ledger.under_own set under⟩
      | free set => exact ⟨some, Ledger.under_free set under⟩
      | take =>
        refine ⟨some, fun _ left => ?_⟩
        exact (Ledger.under_of_take sound some left).not_on_top sound some under
      | undo => contradiction
    | succ count =>
      have covered := under.not_on_top sound some
      cases move with
      | own set =>
        exact ⟨List.cons_ne_nil _ _, fun _ joined => covered (Ledger.under_of_own joined)⟩
      | free set => exact ⟨some, Ledger.under_free set under⟩
      | take => exact ⟨some, Ledger.under_take under⟩
      | undo => contradiction
  | disturbed =>
    obtain ⟨some, apart⟩ := tells
    cases move with
    | own set => exact ⟨List.cons_ne_nil _ _, fun _ under => apart _ (Ledger.under_of_own under)⟩
    | free set =>
      refine ⟨some, fun _ under => ?_⟩
      obtain ⟨_, before⟩ := Ledger.under_of_free sound some under
      exact apart _ before
    | take => exact ⟨some, fun _ under => apart _ (Ledger.under_of_take sound some under)⟩
    | undo => contradiction

theorem Tells.moves {moves : List Move} (others : ∀ move ∈ moves, move ≠ .undo) {ledger : Ledger}
    (sound : ledger.Sound) {standing : Standing} (tells : standing.Tells ledger) :
    (moves.foldl Standing.move standing).Tells (moves.foldl Ledger.move ledger) := by
  induction moves generalizing ledger standing with
  | nil => exact tells
  | cons move rest ih =>
    obtain ⟨other, others⟩ := List.forall_mem_cons.mp others
    exact ih others (sound.move move) (tells.move sound other)

theorem foldl_undo (count : Nat) (standing : Standing) :
    (List.replicate count Move.undo).foldl move standing = standing := by
  induction count with
  | zero => rfl
  | succ count ih =>
    rw [List.replicate_succ, List.foldl_cons]
    cases standing with
    | under count => cases count <;> exact ih
    | _ => exact ih

/-- The sets of the head are on top exactly if its standing is settled. -/
theorem Tells.settled_iff {ledger : Ledger} (sound : ledger.Sound) {standing : Standing}
    (tells : standing.Tells ledger) : standing.Settled ↔ ledger.Under 0 := by
  cases standing with
  | unused =>
    obtain ⟨made, foreign⟩ := tells
    exact iff_of_true (.inl rfl)
      ⟨[], ledger.stack, by rw [made]; rfl, rfl, List.forall_mem_nil _, foreign⟩
  | under count =>
    obtain ⟨some, under⟩ := tells
    cases count with
    | zero => exact iff_of_true (.inr rfl) under
    | succ count => exact iff_of_false (by simp [Settled]) (under.not_on_top sound some)
  | disturbed => exact iff_of_false (by simp [Settled]) (tells.2 0)

end Standing

/-- Taking off as many sets as the head pushed, or all there are, takes off its own exactly if they
are on top. -/
theorem Ledger.exact_undo_iff {ledger : Ledger} (sound : ledger.Sound)
    (fresh : ledger.undone = []) :
    ((List.replicate (min ledger.made.length ledger.stack.length) Move.undo).foldl move
      ledger).Exact ↔ ledger.Under 0 := by
  rw [foldl_undo, fresh, List.nil_append]
  generalize count : min ledger.made.length ledger.stack.length = least
  constructor
  · rintro ⟨undone, gone⟩
    have owned : ∀ held ∈ ledger.stack.take least, held.own = true :=
      fun held member => sound.made held (undone.mem_iff.mp member)
    have foreign : (ledger.stack.drop least).filter (·.own) = [] :=
      List.filter_eq_nil_iff.mpr fun held member => Bool.eq_false_iff.mp (gone held member)
    have kept := sound.stack
    rw [← List.take_append_drop least ledger.stack, List.filter_append, foreign, List.append_nil,
      List.filter_eq_self.mpr owned] at kept
    refine ⟨[], ledger.stack.drop least, ?_, rfl, List.forall_mem_nil _, gone⟩
    rw [List.nil_append, ← kept.eq_of_length undone.length_eq, List.take_append_drop]
  · rintro ⟨above, below, stack, length, _, foreign⟩
    rw [List.length_eq_zero_iff.mp length, List.nil_append] at stack
    rw [stack, List.length_append, Nat.min_eq_left (Nat.le_add_right _ _)] at count
    rw [stack, ← count, List.take_left, List.drop_left]
    exact ⟨.refl _, foreign⟩

/-- The end of a tag takes off exactly what its head pushed just when the standing of the head was
settled before. -/
theorem Ledger.exact_iff_settled (sets : List RuleSet) {moves : List Move} {made count : Nat}
    (inside : Inside moves made)
    (undoes : count = min made (moves.foldl move (opening sets)).stack.length) :
    ((moves ++ List.replicate count Move.undo).foldl move (opening sets)).Exact ↔
      ((moves ++ List.replicate count Move.undo).foldl Standing.move .unused).Settled := by
  have sound := sound_opening sets
  have opened : Standing.unused.Tells (opening sets) := by
    refine ⟨rfl, fun held member => ?_⟩
    obtain ⟨set, _, rfl⟩ := List.mem_map.mp member
    rfl
  have length := length_made moves (opening sets)
  rw [inside.count, show (opening sets).made.length = 0 from rfl, Nat.add_zero] at length
  rw [List.foldl_append, List.foldl_append, Standing.foldl_undo, undoes, ← length,
    exact_undo_iff (sound.moves moves) (undone_of_others inside.others _),
    (opened.moves inside.others sound).settled_iff (sound.moves moves)]

end TextGrammar
