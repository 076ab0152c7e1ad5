import Mathlib
import TextGrammar.Keyed

/-! # Reading a map after a change

The laws of reading hold of every list of entries: reading takes the first entry of a key, and a
change touches no later one. Where the keys ascend, as in every map that is built by setting keys,
setting one either changes its entry or adds one, and sorting changes nothing.
-/

namespace TextGrammar.Keyed

variable {α : Type}

theorem lookup_insert_self (key : String) (value : α) (map : List (String × α)) :
    (insert key value map).lookup key = some value := by
  induction map with
  | nil => simp only [insert, List.lookup_cons_self]
  | cons entry rest ih =>
    rcases entry with ⟨other, previous⟩
    simp only [insert]
    split
    · exact List.lookup_cons_self
    · next different =>
      split
      · exact List.lookup_cons_self
      · simpa only [List.lookup_cons, beq_false_of_ne different] using ih

theorem lookup_insert_of_ne {key other : String} (different : other ≠ key) (value : α)
    (map : List (String × α)) : (insert key value map).lookup other = map.lookup other := by
  have unequal : (other == key) = false := beq_false_of_ne different
  induction map with
  | nil => simp only [insert, List.lookup_cons, List.lookup_nil, unequal]
  | cons entry rest ih =>
    rcases entry with ⟨first, previous⟩
    simp only [insert]
    split
    · next same => simp only [List.lookup_cons, ← same, unequal]
    · split
      · simp only [List.lookup_cons, unequal]
      · simp only [List.lookup_cons, ih]

/-- Setting a key is seen at this key alone. -/
theorem lookup_insert (key other : String) (value : α) (map : List (String × α)) :
    (insert key value map).lookup other = if other = key then some value else map.lookup other := by
  split
  · next same => rw [same, lookup_insert_self]
  · next different => exact lookup_insert_of_ne different value map

/-- Changing the value of a key is seen at this key alone. -/
theorem lookup_modify (key other : String) (change : α → α) (map : List (String × α)) :
    (modify key change map).lookup other =
      if other = key then (map.lookup key).map change else map.lookup other := by
  induction map with
  | nil => exact (ite_self none).symm
  | cons entry rest ih =>
    rcases entry with ⟨first, held⟩
    rw [modify]
    split
    · next here =>
      subst here
      rw [List.lookup_cons_self, List.lookup_cons, List.lookup_cons]
      split
      · next same => rw [if_pos (eq_of_beq same), Option.map_some]
      · next different => rw [if_neg (ne_of_beq_false different)]
    · next elsewhere =>
      have unequal : (key == first) = false := beq_false_of_ne (Ne.symm elsewhere)
      rw [List.lookup_cons, List.lookup_cons, List.lookup_cons, unequal, ih]
      split
      · next same => rw [if_neg (eq_of_beq same ▸ elsewhere)]
      · rfl

section

variable {β : Type}

theorem lookup_map (change : α → β) (key : String) (map : List (String × α)) :
    (map.map fun entry => (entry.1, change entry.2)).lookup key = (map.lookup key).map change := by
  induction map with
  | nil => rfl
  | cons entry rest ih =>
    rcases entry with ⟨other, value⟩
    simp only [List.map_cons, List.lookup_cons, ih]
    cases key == other <;> rfl

/-- Changing all values, each with a view to its key, goes together with setting one. -/
theorem insert_map (key : String) (change : String → α → β) (value : α)
    (map : List (String × α)) :
    (insert key value map).map (fun entry => (entry.1, change entry.1 entry.2)) =
      insert key (change key value) (map.map fun entry => (entry.1, change entry.1 entry.2)) := by
  induction map with
  | nil => rfl
  | cons entry rest ih =>
    simp only [insert, List.map_cons]
    split
    · rfl
    · split
      · rfl
      · rw [List.map_cons, ih]

end

section

variable {key : String} {value previous : α} {map : List (String × α)}

/-- The keys of a map ascend, so that each stands there once. -/
def Ascending (map : List (String × α)) : Prop :=
  map.Pairwise fun one other => one.1 < other.1

theorem mem_insert {entry : String × α} (member : entry ∈ insert key value map) :
    entry = (key, value) ∨ entry ∈ map := by
  induction map with
  | nil => exact .inl (List.mem_singleton.mp member)
  | cons first rest ih =>
    simp only [insert] at member
    split at member
    · exact (List.mem_cons.mp member).imp_right (List.mem_cons_of_mem _)
    · split at member
      · exact List.mem_cons.mp member
      · rcases List.mem_cons.mp member with rfl | member
        · exact .inr List.mem_cons_self
        · exact (ih member).imp_right (List.mem_cons_of_mem _)

theorem forall_mem_insert {holds : String → α → Prop} (each : ∀ entry ∈ map, holds entry.1 entry.2)
    (fits : holds key value) : ∀ entry ∈ insert key value map, holds entry.1 entry.2 := by
  intro entry member
  rcases mem_insert member with rfl | held
  · exact fits
  · exact each entry held

theorem mem_overlay {entry : String × α} {entries : List (String × α)}
    (member : entry ∈ overlay map entries) : entry ∈ entries ∨ entry ∈ map := by
  induction entries generalizing map with
  | nil => exact .inr member
  | cons first rest ih =>
    rcases ih member with late | early
    · exact .inl (List.mem_cons_of_mem _ late)
    · rcases mem_insert early with rfl | held
      · exact .inl List.mem_cons_self
      · exact .inr held

theorem Ascending.insert (ascending : Ascending map) (key : String) (value : α) :
    Ascending (insert key value map) := by
  induction map with
  | nil => exact List.pairwise_singleton _ _
  | cons first rest ih =>
    obtain ⟨below, later⟩ := List.pairwise_cons.mp ascending
    simp only [Keyed.insert]
    split
    · next same => exact .cons (fun entry member => same ▸ below entry member) later
    · next different =>
      split
      · next before =>
        refine .cons (List.forall_mem_cons.mpr ⟨before, fun entry member => ?_⟩) ascending
        exact String.lt_trans before (below entry member)
      · next notBefore =>
        have after : first.1 < key :=
          lt_of_le_of_ne (String.not_lt.mp notBefore) (Ne.symm different)
        refine .cons (fun entry member => ?_) (ih later)
        rcases mem_insert member with rfl | member
        · exact after
        · exact below entry member

theorem Ascending.overlay (ascending : Ascending map) (entries : List (String × α)) :
    Ascending (overlay map entries) := by
  induction entries generalizing map with
  | nil => exact ascending
  | cons entry rest ih => exact ih (ascending.insert entry.1 entry.2)

theorem ascending_ofEntries (entries : List (String × α)) : Ascending (ofEntries entries) :=
  Ascending.overlay .nil entries

/-- Setting a key that the map has changes its entry in its place. -/
theorem insert_of_lookup (ascending : Ascending map) (found : map.lookup key = some previous)
    (value : α) : ∃ before after, map = before ++ (key, previous) :: after ∧
      insert key value map = before ++ (key, value) :: after := by
  induction map with
  | nil => contradiction
  | cons first rest ih =>
    obtain ⟨below, later⟩ := List.pairwise_cons.mp ascending
    rcases first with ⟨other, held⟩
    by_cases same : key = other
    · subst other
      rw [List.lookup_cons_self] at found
      cases found
      exact ⟨[], rest, rfl, by simp only [insert, ↓reduceIte, List.nil_append]⟩
    · simp only [List.lookup_cons, beq_false_of_ne same] at found
      obtain ⟨before, after, split, inserted⟩ := ih later found
      have earlier : other < key := below (key, previous) (split ▸ List.mem_append_cons_self)
      refine ⟨(other, held) :: before, after, congrArg _ split, ?_⟩
      simp only [insert, same, String.lt_asymm earlier, ↓reduceIte, inserted, List.cons_append]

/-- Setting a key that the map lacks adds an entry. -/
theorem insert_of_lookup_none (missing : map.lookup key = none) (value : α) :
    ∃ before after, map = before ++ after ∧
      insert key value map = before ++ (key, value) :: after := by
  induction map with
  | nil => exact ⟨[], [], rfl, rfl⟩
  | cons first rest ih =>
    rcases first with ⟨other, held⟩
    have different : key ≠ other := by
      rintro rfl
      rw [List.lookup_cons_self] at missing
      contradiction
    simp only [List.lookup_cons, beq_false_of_ne different] at missing
    simp only [insert, different, ↓reduceIte]
    split
    · exact ⟨[], _, rfl, rfl⟩
    · obtain ⟨before, after, split, inserted⟩ := ih missing
      exact ⟨(other, held) :: before, after, congrArg _ split, congrArg _ inserted⟩

end

section

variable {key : String} {value : α} {map other : List (String × α)}

theorem mem_of_lookup (found : map.lookup key = some value) : (key, value) ∈ map := by
  obtain ⟨before, later, split, _⟩ := List.lookup_eq_some_iff.mp found
  exact split ▸ List.mem_append_cons_self

theorem lookup_eq_none_of_forall_lt (above : ∀ entry ∈ map, key < entry.1) :
    map.lookup key = none :=
  List.lookup_eq_none_iff.mpr fun entry member => bne_iff_ne.mpr (ne_of_lt (above entry member))

theorem Ascending.lookup_of_mem (ascending : Ascending map) (member : (key, value) ∈ map) :
    map.lookup key = some value := by
  induction map with
  | nil => contradiction
  | cons entry rest ih =>
    obtain ⟨below, later⟩ := List.pairwise_cons.mp ascending
    rcases List.mem_cons.mp member with rfl | held
    · exact List.lookup_cons_self
    · rw [List.lookup_cons, beq_false_of_ne (ne_of_gt (below (key, value) held))]
      exact ih later held

/-- Maps in which every key reads the same are the same. -/
theorem Ascending.ext (ascending : Ascending map) (ascendingOther : Ascending other)
    (same : ∀ key, map.lookup key = other.lookup key) : map = other := by
  have irreflexive : Std.Irrefl fun one other : String × α => one.1 < other.1 :=
    ⟨fun entry => lt_irrefl entry.1⟩
  have antisymmetric : Std.Antisymm fun one other : String × α => one.1 < other.1 :=
    ⟨fun _ _ before after => absurd after (lt_asymm before)⟩
  refine List.Pairwise.eq_of_mem_iff ascending ascendingOther fun entry => ⟨fun held => ?_,
    fun held => ?_⟩
  · exact mem_of_lookup ((same entry.1).symm.trans (ascending.lookup_of_mem held))
  · exact mem_of_lookup ((same entry.1).trans (ascendingOther.lookup_of_mem held))

/-- A key that is laid over a map reads as laid, every other one as before. -/
theorem lookup_overlay (ascending : Ascending other) (key : String) :
    (overlay map other).lookup key = (other.lookup key).or (map.lookup key) := by
  induction other generalizing map with
  | nil => rfl
  | cons entry rest ih =>
    obtain ⟨below, later⟩ := List.pairwise_cons.mp ascending
    refine (@ih (insert entry.1 entry.2 map) later).trans ?_
    rw [lookup_insert]
    by_cases same : key = entry.1
    · subst same
      rw [lookup_eq_none_of_forall_lt below, if_pos rfl, Option.none_or, List.lookup_cons_self,
        Option.some_or]
    · rw [if_neg same, List.lookup_cons, beq_false_of_ne same]

/-- A key is left by a filter of the values if its value is kept. -/
theorem Ascending.lookup_filter (ascending : Ascending map) (keep : α → Bool) (key : String) :
    (map.filter fun entry => keep entry.2).lookup key = (map.lookup key).filter keep := by
  induction map with
  | nil => rfl
  | cons entry rest ih =>
    obtain ⟨below, later⟩ := List.pairwise_cons.mp ascending
    rw [List.filter_cons, List.lookup_cons]
    by_cases same : key = entry.1
    · subst same
      rw [beq_self_eq_true, Option.filter_some]
      split
      · exact List.lookup_cons_self
      · rw [ih later, lookup_eq_none_of_forall_lt below, Option.filter_none]
    · rw [beq_false_of_ne same, ← ih later]
      split
      · rw [List.lookup_cons, beq_false_of_ne same]
      · rfl

/-- Sorting neither adds entries nor loses any. -/
theorem mem_sort {entry : String × α} {entries : List (String × α)} :
    entry ∈ sort entries ↔ entry ∈ entries :=
  List.mem_mergeSort

/-- A map is in order already. -/
theorem Ascending.sort_eq (ascending : Ascending map) : sort map = map :=
  List.mergeSort_of_pairwise (ascending.imp fun before => decide_eq_true before.le)

end

/-- Changing the values of entries goes together with sorting them. -/
theorem sort_map {β : Type} (change : String × α → β) (entries : List (String × α)) :
    sort (entries.map fun entry => (entry.1, change entry)) =
      (sort entries).map fun entry => (entry.1, change entry) := by
  let changed (entry : String × α) : String × β := (entry.1, change entry)
  have same : ∀ first ∈ entries, ∀ second ∈ entries, decide (first.1 ≤ second.1) =
      decide ((changed first).1 ≤ (changed second).1) := fun _ _ _ _ => rfl
  exact (List.map_mergeSort same).symm

end TextGrammar.Keyed
