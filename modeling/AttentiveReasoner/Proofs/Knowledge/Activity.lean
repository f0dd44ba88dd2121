import AttentiveReasoner.Proofs.Attention.Bag.Residents
import AttentiveReasoner.Proofs.Knowledge.Displays

/-!
Contract: how far the activity of a concept, and what its observer was shown last, may lag
behind its priority.

Owns:
- the ageing of a budget in a bag, which notes its placement and fades;
- that the activity of a concept is that of an earlier priority, of which ageing left the
  current one, and that what its observer was shown last is its text with such a budget;
- that what is refreshed does not lag, and that nothing lags without forgetting;
- the account of all recordings that are showing, and how bags of concepts keep it.

Does not own: the operations of a memory.

Refreshing looks at the budget of the moment. A bag lowers the priority when a concept is
put back and tells nobody, so both lag until the concept is refreshed again.
-/

namespace AttentiveReasoner

open AttentiveReasoner.Attention
open AttentiveReasoner.Numeric

variable [Arithmetic]

namespace Attention.Budget

/-- How a bag changes a budget by itself: it notes when it placed it, and lets it fade. -/
inductive Aged (cycles : Nat) (before : Budget) : Budget → Prop
  | here : Aged cycles before before
  | placed {after : Budget} (aged : Aged cycles before after) (clock : Nat) :
      Aged cycles before (after.placedAt clock)
  | faded {after : Budget} (aged : Aged cycles before after) (clock : Nat) :
      Aged cycles before (after.fade cycles clock)

/-- Without forgetting, ageing changes nothing but the time of placement. -/
theorem Aged.unfaded {before after : Budget} (aged : Aged 0 before after) :
    after = before.placedAt after.lastUpdate := by
  induction aged with
  | here => rfl
  | placed aged clock inductionHypothesis => rw [inductionHypothesis]; rfl
  | faded aged clock inductionHypothesis => exact inductionHypothesis

end Attention.Budget

namespace Knowledge

namespace Concept

variable {cycles : Nat} {concept later : Concept} {text : String}

/-! ## Lagging behind -/

/-- The activity is that of a priority of which ageing left the current one. -/
def Follows (cycles : Nat) (concept : Concept) : Prop :=
  ∃ before : Budget, before.Aged cycles concept.budget ∧
    concept.activity = .ofPriority before.priority

/-- The text of a concept, with a budget of which ageing left the current one. -/
def Shows (cycles : Nat) (concept : Concept) (text : String) : Prop :=
  ∃ before : Budget, before.Aged cycles concept.budget ∧
    text = ({ concept with budget := before } : Concept).text

theorem refresh_follows (concept : Concept) : concept.refresh.1.Follows cycles :=
  ⟨concept.budget, .here, rfl⟩

theorem absorb_follows (concept other : Concept) : (concept.absorb other).1.Follows cycles := by
  obtain ⟨merged, _, absorbed⟩ := absorb_cases concept other
  rw [absorbed]
  exact refresh_follows merged

theorem shows_text (concept : Concept) : concept.Shows cycles concept.text :=
  ⟨concept.budget, .here, rfl⟩

theorem Follows.exact (follows : concept.Follows 0) :
    concept.activity = .ofPriority concept.budget.priority := by
  obtain ⟨before, aged, activity⟩ := follows
  rw [activity, aged.unfaded]
  rfl

theorem Shows.exact (shows : concept.Shows 0 text) : text = concept.text := by
  obtain ⟨before, aged, rfl⟩ := shows
  have same : concept.budget = before.placedAt concept.budget.lastUpdate := aged.unfaded
  have current : concept.text = ({ concept with
      budget := before.placedAt concept.budget.lastUpdate } : Concept).text := by
    rw [← same]
  rw [current]
  rfl

theorem stable_follows (cycles : Nat) : Bag.Stable cycles (Concept.Follows cycles) where
  placed := by
    rintro concept clock ⟨before, aged, activity⟩
    exact ⟨before, aged.placed clock, activity⟩
  merged := fun _ _ _ _ _ => absorb_follows _ _
  faded := by
    rintro concept clock ⟨before, aged, activity⟩
    exact ⟨before, aged.faded clock, activity⟩

/-! ## Later states -/

/-- A later state of a concept, under the same observer, that shows what it showed. -/
structure Continues (cycles : Nat) (concept later : Concept) : Prop where
  observer_eq : later.observer = concept.observer
  shows : ∀ text, concept.Shows cycles text → later.Shows cycles text

theorem Continues.refl (concept : Concept) : concept.Continues cycles concept :=
  ⟨rfl, fun _ shows => shows⟩

theorem Continues.placed (bag : ConceptBag) (concept : Concept) :
    concept.Continues cycles (bag.placed concept) where
  observer_eq := rfl
  shows := by
    rintro text ⟨before, aged, isText⟩
    exact ⟨before, aged.placed bag.clock, isText⟩

theorem Continues.forget (bag : ConceptBag) (concept : Concept) :
    concept.Continues bag.forgetCycles (bag.forget concept) where
  observer_eq := rfl
  shows := by
    rintro text ⟨before, aged, isText⟩
    exact ⟨before, aged.faded bag.clock, isText⟩

/-- A concept that has no task to give away stays as it is, in all that it shows. -/
theorem takeTask_none (nothing : concept.takeTask.1 = none) :
    concept.Continues cycles concept.takeTask.2 where
  observer_eq := rfl
  shows := by
    rintro text ⟨before, aged, rfl⟩
    obtain ⟨slots, ranking⟩ := Bag.takeOut_none nothing
    refine ⟨before, aged, ?_⟩
    simp only [Concept.text, takeTask, key, Bag.size, Bag.keys, slots, ranking]

end Concept

/-! ## Accounting for what is shown -/

/-- Of every recording that is showing, what it was shown last is a text of a concept that
it observes, be it an earlier one. Of the recordings of concepts that are away nothing is
said. -/
def Displays.Accounted (cycles : Nat) (displays : Displays) (away present : List Concept) :
    Prop :=
  ∀ name, (displays.of (.recording name)).showing = true →
    (∃ concept ∈ away, concept.observer = some (.recording name)) ∨
      ∃ concept ∈ present, concept.observer = some (.recording name) ∧
        ∃ text, (displays.of (.recording name)).shown.getLast? = some text ∧
          concept.Shows cycles text

namespace Displays.Accounted

variable {cycles : Nat} {displays : Displays} {away present others : List Concept}
  {concept changed : Concept} {notices : List Notice}

theorem carry (accounted : Accounted cycles displays away present)
    (carried : ∀ concept ∈ present, concept.observer ≠ none →
      ∃ later ∈ others, concept.Continues cycles later) :
    Accounted cycles displays away others := by
  intro name showing
  rcases accounted name showing with gone | ⟨concept, member, observes, text, last, shows⟩
  · exact .inl gone
  · have observed : concept.observer ≠ none := by
      rw [observes]
      exact Option.some_ne_none _
    obtain ⟨later, laterMember, continues⟩ := carried concept member observed
    refine .inr ⟨later, laterMember, ?_, text, last, continues.shows text shows⟩
    rw [continues.observer_eq, observes]

theorem mono (accounted : Accounted cycles displays away present)
    (subset : ∀ concept ∈ present, concept ∈ others) :
    Accounted cycles displays away others :=
  accounted.carry fun concept member _ => ⟨concept, subset concept member, .refl concept⟩

/-- A concept goes away. -/
theorem leave (accounted : Accounted cycles displays away (concept :: present)) :
    Accounted cycles displays (concept :: away) present := by
  intro name showing
  rcases accounted name showing with ⟨other, member, observes⟩ | ⟨other, member, observes, shown⟩
  · exact .inl ⟨other, List.mem_cons_of_mem _ member, observes⟩
  · rcases List.mem_cons.mp member with rfl | stays
    · exact .inl ⟨other, List.mem_cons_self, observes⟩
    · exact .inr ⟨other, stays, observes, shown⟩

/-- Concepts are changed into one, and it is announced. -/
theorem announce {leaving stillAway : List Concept}
    (accounted : Accounted cycles displays away present)
    (announces : Announces leaving changed notices)
    (awayStays : ∀ concept ∈ away, concept ∈ leaving ∨ concept ∈ stillAway)
    (presentStays : ∀ concept ∈ present, concept ∈ leaving ∨ concept ∈ others) :
    Accounted cycles (displays.receiveAll notices) stillAway (changed :: others) := by
  intro name showing
  rcases displays.receiveAll_cases showing with
    ⟨unheard, unchanged⟩ | ⟨notice, member, addressed, text, carried, last⟩
  · have notLeaving : ∀ concept, concept.observer = some (.recording name) →
        concept ∉ leaving := by
      intro concept observes isLeaving
      obtain ⟨notice, member, addressed⟩ := announces.reaches concept isLeaving _ observes
      exact unheard notice member addressed
    rw [unchanged] at showing ⊢
    rcases accounted name showing with ⟨concept, member, observes⟩ |
      ⟨concept, member, observes, shown⟩
    · have stays := (awayStays concept member).resolve_left (notLeaving concept observes)
      exact .inl ⟨concept, stays, observes⟩
    · have stays := (presentStays concept member).resolve_left (notLeaving concept observes)
      exact .inr ⟨concept, List.mem_cons_of_mem _ stays, observes, shown⟩
  · obtain ⟨observes, rfl⟩ := announces.carries notice member text carried
    rw [addressed] at observes
    exact .inr ⟨changed, List.mem_cons_self, observes, _, last, changed.shows_text⟩

/-! ## In a bag of concepts -/

variable {bag : ConceptBag}

/-- A concept is taken out of its bag. -/
theorem takeOut (accounted : Accounted cycles displays away bag.items)
    (consistent : bag.Consistent) (isTaken : bag.takeOut.1 = some concept) :
    Accounted cycles displays away (concept :: bag.takeOut.2.items) := by
  rcases consistent.takeOut_cases with ⟨nothing, _⟩ | ⟨taken, takenMember, isThis, others⟩
  · rw [nothing] at isTaken
    contradiction
  · obtain rfl : taken = concept := Option.some.inj (isThis.symm.trans isTaken)
    refine accounted.mono ?_
    intro other member
    by_cases sameKey : Item.key other = Item.key taken
    · rw [consistent.eq_of_key_eq member takenMember sameKey]
      exact List.mem_cons_self
    · exact List.mem_cons_of_mem _ ((others other).mpr ⟨member, sameKey⟩)

/-- What enters a bag is announced: it is the concept itself, or a resident that absorbed it. -/
theorem enter {entering : Concept} {placement : Placement Concept Notice}
    (accounted : Accounted cycles displays away (concept :: bag.items))
    (consistent : bag.Consistent) (admits : Bag.Admits bag concept entering placement)
    (remains : ∀ other ∈ bag.items, Item.key other ≠ Item.key concept → other ∈ others) :
    Accounted cycles (displays.receiveAll placement.notices) away (entering :: others) := by
  rcases admits.origin with ⟨rfl, silent, replaces | free⟩ |
    ⟨resident, residentMember, sameKey, absorbed⟩
  · contradiction
  · rw [silent]
    refine accounted.mono ?_
    intro other member
    rcases List.mem_cons.mp member with rfl | inBag
    · exact List.mem_cons_self
    · exact List.mem_cons_of_mem _ (remains other inBag (free other inBag))
  · -- Budgets are merged before, which concerns no observer.
    have announces : Announces [resident, concept] entering placement.notices := by
      have merges : Announces [resident, concept]
          (Item.absorb (Item.mapBudget (·.merge (Item.budget concept)) resident) concept).1
          (Item.absorb (Item.mapBudget (·.merge (Item.budget concept)) resident) concept).2 :=
        Concept.absorb_announces (Item.mapBudget (·.merge (Item.budget concept)) resident)
          concept rfl
      rwa [absorbed] at merges
    refine accounted.announce announces (fun other member => .inr member) ?_
    intro other member
    rcases List.mem_cons.mp member with rfl | inBag
    · exact .inl (List.mem_cons_of_mem _ List.mem_cons_self)
    · by_cases keyed : Item.key other = Item.key concept
      · have same : other = resident :=
          consistent.eq_of_key_eq inBag residentMember (keyed.trans sameKey.symm)
        rw [same]
        exact .inl List.mem_cons_self
      · exact .inr (remains other inBag keyed)

/-- A concept is put into a bag, and may push out another one. -/
theorem put (accounted : Accounted cycles displays away (concept :: bag.items))
    (consistent : bag.Consistent) :
    Accounted cycles (displays.receiveAll (bag.put concept).notices) away
      ((bag.put concept).bag.items ++ (bag.put concept).departed.toList) := by
  obtain ⟨entering, admits⟩ := consistent.put_admits concept
  have isAfterwards : ∀ other,
      other = bag.placed entering ∨ other ∈ bag.items ∧ Item.key other ≠ Item.key concept →
        other ∈ (bag.put concept).bag.items ++ (bag.put concept).departed.toList := by
    intro other remains
    rw [List.mem_append, Option.mem_toList]
    exact (admits.mem_iff other).mpr remains
  have entered := accounted.enter consistent admits
    fun other inBag keyed => isAfterwards other (.inr ⟨inBag, keyed⟩)
  refine entered.carry ?_
  intro other member _
  rcases List.mem_cons.mp member with rfl | stays
  · exact ⟨bag.placed other, isAfterwards _ (.inl rfl), .placed bag other⟩
  · exact ⟨other, stays, .refl other⟩

/-- A concept is put back into its bag, with forgetting. -/
theorem putBack (accounted : Accounted bag.forgetCycles displays away (concept :: bag.items))
    (consistent : bag.Consistent) :
    Accounted bag.forgetCycles (displays.receiveAll (bag.putBack concept).notices) away
      ((bag.putBack concept).bag.items ++ (bag.putBack concept).departed.toList) := by
  have forgotten : Accounted bag.forgetCycles displays away
      (bag.forget concept :: bag.items) := by
    refine accounted.carry ?_
    intro other member _
    rcases List.mem_cons.mp member with rfl | inBag
    · exact ⟨bag.forget other, List.mem_cons_self, .forget bag other⟩
    · exact ⟨other, List.mem_cons_of_mem _ inBag, .refl other⟩
  rcases Bag.putBack_cases bag concept with tooWeak | isPut
  · rw [tooWeak]
    refine forgotten.mono ?_
    intro other member
    rcases List.mem_cons.mp member with rfl | inBag
    · exact List.mem_append_right _ (List.mem_singleton.mpr rfl)
    · exact List.mem_append_left _ inBag
  · rw [isPut]
    exact forgotten.put consistent

/-- A resident concept is changed in place, and it is announced. -/
theorem edit {ρ : Type} {name : String} {change : Concept → Concept × List Notice × ρ}
    (accounted : Accounted cycles displays away bag.items) (consistent : bag.Consistent)
    (announces : ∀ concept, Announces [concept] (change concept).1 (change concept).2.1) :
    Accounted cycles
      (displays.receiveAll (((bag.edit name change).1.map Prod.fst).getD [])) away
      (bag.edit name change).2.items := by
  rcases consistent.edit_cases name change with ⟨_, unchanged⟩ |
    ⟨edited, editedMember, keyed, _, told, others⟩
  · rw [unchanged]
    exact accounted
  · rw [told]
    have announced : Accounted cycles (displays.receiveAll (change edited).2.1) away
        ((change edited).1 :: (bag.edit name change).2.items) := by
      refine accounted.announce (announces edited) (fun other member => .inr member) ?_
      intro other member
      by_cases sameKey : Item.key other = name
      · rw [consistent.eq_of_key_eq member editedMember (sameKey.trans keyed.symm)]
        exact .inl List.mem_cons_self
      · exact .inr ((others other).mpr (.inr ⟨member, sameKey⟩))
    refine announced.carry ?_
    intro other member _
    rcases List.mem_cons.mp member with rfl | stays
    · exact ⟨bag.placed (change edited).1, (others _).mpr (.inl rfl), .placed bag _⟩
    · exact ⟨other, stays, .refl other⟩

end Displays.Accounted

end Knowledge

end AttentiveReasoner
