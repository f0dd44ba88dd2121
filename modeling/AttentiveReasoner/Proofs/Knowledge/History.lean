import AttentiveReasoner.Proofs.Knowledge.Concepts
import Mathlib.Data.List.Induction
import Mathlib.Data.List.Nodup

/-!
Contract: a table of beliefs as the latest part of the history of its entries.

Owns:
- the entries that no later one replaces, and what one more entry does to them;
- that a list of distinct keys may be cut off before an entry or after it;
- the table after any history, for every capacity;
- a table after the sentences of another one, from its last to its first.

Does not own: which sentences are entered.

A history lists sentences in the order of their entry, and a table lists the latest one first. The
keys in a table are distinct, so that an entry takes at most one sentence out of it. The entry
itself fills the place that becomes free. No sentence that was cut off before would have come back.
-/

namespace AttentiveReasoner.Knowledge.Beliefs

open AttentiveReasoner.Evidence
open AttentiveReasoner.Language

variable {history sentences : List Sentence} {sentence : Sentence}

/-! ## Replaced entries -/

/-- The entries of a history that no later entry of their key replaces. -/
def unreplaced : List Sentence → List Sentence
  | [] => []
  | sentence :: later =>
      if later.any (·.key = sentence.key) then unreplaced later
      else sentence :: unreplaced later

/-- One more entry replaces the one of its key. -/
theorem unreplaced_append (history : List Sentence) (sentence : Sentence) :
    unreplaced (history ++ [sentence]) =
      (unreplaced history).filter (·.key ≠ sentence.key) ++ [sentence] := by
  induction history with
  | nil => rfl
  | cons first later inductionHypothesis =>
      simp only [List.cons_append, unreplaced, inductionHypothesis]
      by_cases replaced : later.any (·.key = first.key) = true
      · simp [replaced]
      · by_cases same : sentence.key = first.key
        · simp [replaced, same]
        · simp [replaced, same, Ne.symm same]

theorem unreplaced_sublist (history : List Sentence) : (unreplaced history).Sublist history := by
  induction history with
  | nil => exact .slnil
  | cons first later inductionHypothesis =>
      unfold unreplaced
      split
      · exact inductionHypothesis.cons first
      · exact inductionHypothesis.cons_cons first

theorem unreplaced_keys_nodup (history : List Sentence) :
    ((unreplaced history).map Sentence.key).Nodup := by
  induction history with
  | nil => exact List.nodup_nil
  | cons first later inductionHypothesis =>
      unfold unreplaced
      split
      · exact inductionHypothesis
      · rename_i last
        apply List.nodup_cons.mpr ⟨_, inductionHypothesis⟩
        intro member
        obtain ⟨other, isLater, same⟩ := List.mem_map.mp member
        apply last
        simp only [List.any_eq_true, decide_eq_true_eq]
        exact ⟨other, (unreplaced_sublist later).mem isLater, same⟩

/-! ## Cutting off -/

/-- The sentences of a list after one more entry, before the list is cut off. -/
def entered (sentences : List Sentence) (sentence : Sentence) : List Sentence :=
  sentence :: sentences.filter (·.key ≠ sentence.key)

/-- A removal takes at most one sentence out, so that the first of those that remain are among the
first of all, one more included. -/
theorem take_filter_take (distinct : (sentences.map Sentence.key).Nodup) (key : String)
    (bound : Nat) :
    ((sentences.take (bound + 1)).filter (·.key ≠ key)).take bound =
      (sentences.filter (·.key ≠ key)).take bound := by
  induction sentences generalizing bound with
  | nil => simp
  | cons first rest inductionHypothesis =>
      obtain ⟨absent, restDistinct⟩ := List.nodup_cons.mp distinct
      rw [List.take_succ_cons]
      by_cases removed : first.key = key
      · -- Nobody else is removed, so that one more of the others fits.
        have others : rest.filter (·.key ≠ key) = rest := by
          apply List.filter_eq_self.mpr
          intro other member
          have different : other.key ≠ key := by
            rintro rfl
            exact absent (List.mem_map.mpr ⟨other, member, removed.symm⟩)
          simpa using different
        have nearOthers : (rest.take bound).filter (·.key ≠ key) = rest.take bound := by
          apply List.filter_eq_self.mpr
          intro other member
          rw [← others] at member
          exact (List.mem_filter.mp (List.mem_of_mem_take member)).2
        rw [List.filter_cons_of_neg (by simpa using removed),
          List.filter_cons_of_neg (by simpa using removed), others, nearOthers, List.take_take,
          Nat.min_self]
      · rw [List.filter_cons_of_pos (by simpa using removed),
          List.filter_cons_of_pos (by simpa using removed)]
        cases bound with
        | zero => rfl
        | succ bound =>
            rw [List.take_succ_cons, List.take_succ_cons, inductionHypothesis restDistinct]

/-- A list may be cut off before an entry or only after it. -/
theorem take_entered_take (distinct : (sentences.map Sentence.key).Nodup) (sentence : Sentence)
    (capacity : Nat) :
    (entered (sentences.take capacity) sentence).take capacity =
      (entered sentences sentence).take capacity := by
  cases capacity with
  | zero => rfl
  | succ bound =>
      unfold entered
      rw [List.take_succ_cons, List.take_succ_cons, take_filter_take distinct]

/-! ## Tables -/

/-- What a table of a capacity holds after a history: the latest of the entries that no later one
replaced, as many as there is room for. The same is left of a list that is cut off only once, after
the last entry. -/
structure Records (capacity : Nat) (history : List Sentence) (beliefs : Beliefs) : Prop where
  sentences_eq : beliefs.sentences = (unreplaced history).reverse.take capacity
  cut_once : beliefs.sentences = (history.foldl entered []).take capacity
  keys_nodup : (beliefs.sentences.map Sentence.key).Nodup
  newest_first : beliefs.sentences.Sublist history.reverse
  size_le : beliefs.size ≤ capacity

theorem foldl_entered (history : List Sentence) :
    history.foldl entered [] = (unreplaced history).reverse := by
  induction history using List.reverseRecOn with
  | nil => rfl
  | append_singleton history sentence inductionHypothesis =>
      rw [List.foldl_append, List.foldl_cons, List.foldl_nil, inductionHypothesis,
        unreplaced_append, List.reverse_append, List.reverse_singleton, List.singleton_append,
        entered, List.filter_reverse]

theorem entered_keys_nodup (distinct : (sentences.map Sentence.key).Nodup) (sentence : Sentence) :
    ((entered sentences sentence).map Sentence.key).Nodup := by
  have absent : sentence.key ∉
      (sentences.filter (·.key ≠ sentence.key)).map Sentence.key := by
    intro member
    obtain ⟨other, remains, same⟩ := List.mem_map.mp member
    simp [same] at remains
  rw [entered, List.map_cons, List.nodup_cons]
  exact ⟨absent, distinct.sublist (List.filter_sublist.map _)⟩

/-- A table of distinct keys is cut off after every entry, or only once, after the last one. -/
theorem foldl_add_take (distinct : (sentences.map Sentence.key).Nodup) (capacity : Nat)
    (history : List Sentence) :
    history.foldl add { capacity := capacity, sentences := sentences.take capacity } =
      { capacity := capacity, sentences := (history.foldl entered sentences).take capacity } := by
  induction history generalizing sentences with
  | nil => rfl
  | cons sentence later inductionHypothesis =>
      have added : add { capacity := capacity, sentences := sentences.take capacity } sentence =
          { capacity := capacity, sentences := (entered sentences sentence).take capacity } := by
        rw [← take_entered_take distinct]
        rfl
      rw [List.foldl_cons, List.foldl_cons, added,
        inductionHypothesis (entered_keys_nodup distinct sentence)]

theorem foldl_add (capacity : Nat) (history : List Sentence) :
    history.foldl add { capacity := capacity } =
      { capacity := capacity, sentences := (history.foldl entered []).take capacity } := by
  have distinct : (([] : List Sentence).map Sentence.key).Nodup := List.nodup_nil
  simpa using foldl_add_take distinct capacity history

/-- Distinct sentences that are entered from the last to the first come before all others. -/
theorem foldl_entered_reverse (distinct : (history.map Sentence.key).Nodup)
    (sentences : List Sentence) :
    history.reverse.foldl entered sentences =
      history ++ sentences.filter (·.key ∉ history.map Sentence.key) := by
  induction history with
  | nil => simp
  | cons first later inductionHypothesis =>
      obtain ⟨absent, laterDistinct⟩ := List.nodup_cons.mp distinct
      have others : later.filter (·.key ≠ first.key) = later := by
        refine List.filter_eq_self.mpr ?_
        intro other member
        have different : other.key ≠ first.key := by
          intro same
          exact absent (List.mem_map.mpr ⟨other, member, same⟩)
        simpa using different
      rw [List.reverse_cons, List.foldl_append, inductionHypothesis laterDistinct,
        List.foldl_cons, List.foldl_nil, entered, List.filter_append, others,
        List.filter_filter, List.cons_append]
      congr 3
      funext other
      simp [List.map_cons]

/-- Whatever is entered into an empty table, one sentence after the other, and whatever its capacity
is. -/
theorem foldl_add_records (capacity : Nat) (history : List Sentence) :
    Records capacity history (history.foldl add { capacity := capacity }) := by
  have latest : (history.foldl add { capacity := capacity }).sentences =
      (unreplaced history).reverse.take capacity := by
    rw [foldl_add, foldl_entered]
  have unreplacedKeys : ((unreplaced history).reverse.map Sentence.key).Nodup := by
    rw [List.map_reverse, List.nodup_reverse]
    exact unreplaced_keys_nodup history
  constructor
  case sentences_eq => exact latest
  case cut_once => rw [foldl_add]
  case keys_nodup =>
    rw [latest]
    exact unreplacedKeys.sublist ((List.take_sublist _ _).map _)
  case newest_first =>
    rw [latest]
    exact (List.take_sublist _ _).trans (unreplaced_sublist history).reverse
  case size_le =>
    rw [size, latest]
    exact List.length_take_le _ _

/-- A sentence that is entered again comes first, and the one that had been cut off stays away. -/
example :
    let judgment := fun (name : String) (serial : Nat) =>
      (⟨Term.atom 0 name, .judgment, .input serial 0⟩ : Sentence)
    let history := [judgment "a" 1, judgment "b" 2, judgment "c" 3, judgment "b" 4]
    (history.foldl add { capacity := 2 }).sentences.map
        (fun belief => (belief.key, belief.stamp.base)) =
      [("b.", [4]), ("c.", [3])] := by
  decide

end AttentiveReasoner.Knowledge.Beliefs
