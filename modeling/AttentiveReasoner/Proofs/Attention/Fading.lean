import AttentiveReasoner.Proofs.Attention.Budgets
import AttentiveReasoner.Proofs.Numeric.Powers

/-!
Contract: how the priority of a budget fades.

Owns:
- the lowering of a budget: the priority is not above the one before, and the rest is kept;
- that a factor of the unit interval lowers a budget, and one that is no number too;
- that fading lowers every budget in range, for every rate and at every time.

Does not own: when a budget fades.
-/

namespace AttentiveReasoner.Attention.Budget

open AttentiveReasoner.Numeric

variable {budget middle later : Budget}

/-! ## Lowering -/

/-- A budget in range that was lowered from another one. -/
structure LoweredFrom (budget later : Budget) : Prop where
  inRange : later.InRange
  priority : Single.atMost later.priority budget.priority = true
  durability : later.durability = budget.durability
  quality : later.quality = budget.quality

theorem atMost_trans {left middle right : Float32} (first : Single.atMost left middle = true)
    (second : Single.atMost middle right = true) : Single.atMost left right = true := by
  rw [Single.atMost_iff] at first second ⊢
  exact ⟨first.1, second.2.1, first.2.2.trans second.2.2⟩

theorem LoweredFrom.refl (inRange : budget.InRange) : LoweredFrom budget budget where
  inRange := inRange
  priority := by
    have isNumber := inRange.priority.isNumber
    exact (Single.atMost_iff _ _).mpr ⟨isNumber, isNumber, le_rfl⟩
  durability := rfl
  quality := rfl

theorem LoweredFrom.trans (first : LoweredFrom budget middle) (second : LoweredFrom middle later) :
    LoweredFrom budget later where
  inRange := second.inRange
  priority := atMost_trans second.priority first.priority
  durability := second.durability.trans first.durability
  quality := second.quality.trans first.quality

theorem LoweredFrom.placedAt (lowered : LoweredFrom budget later) (clock : ℕ) :
    LoweredFrom budget (later.placedAt clock) where
  inRange := lasting_inRange.placed later clock lowered.inRange
  priority := lowered.priority
  durability := lowered.durability
  quality := lowered.quality

/-! ## Factors -/

/-- A factor that does not raise a priority: it is of the unit interval, or no number. -/
def Damping (factor : Float32) : Prop :=
  Single.Between Single.zero Single.one factor ∨ factor.toModel.unpack = .notANumber

theorem clampUnit_of_between {number : Float32}
    (between : Single.Between Single.zero Single.one number) :
    Single.clampUnit number = number := by
  obtain ⟨_, isNumber, above⟩ := (Single.atMost_iff _ _).mp between.lower_atMost
  obtain ⟨_, _, below⟩ := (Single.atMost_iff _ _).mp between.atMost_upper
  unfold Single.clampUnit
  rw [isNumber, Single.less_eq_false above, Single.less_eq_false below]
  rfl

theorem decay_lowers {factor : Float32} (inRange : budget.InRange) (damping : Damping factor) :
    LoweredFrom budget (budget.decay factor) where
  inRange := lasting_inRange.reprioritized budget _ inRange
  priority := by
    show Single.atMost (Single.clampUnit (budget.priority * factor)) budget.priority = true
    rcases damping with between | nothing
    · have product := inRange.priority.mul between
      have inUnit : Single.Between Single.zero Single.one (budget.priority * factor) :=
        ⟨product.lower_atMost, atMost_trans product.atMost_upper inRange.priority.atMost_upper⟩
      rw [clampUnit_of_between inUnit]
      exact product.atMost_upper
    · unfold Single.clampUnit
      rw [if_pos (Single.isNaN_mul _ nothing)]
      exact inRange.priority.lower_atMost
  durability := rfl
  quality := rfl

/-! ## Fading -/

theorem isNegative_one_add (between : Single.Between Single.zero Single.one budget.quality) :
    Single.isNegative (Single.one + budget.quality) = false := by
  obtain ⟨exact, means, nonneg, atMost⟩ := between.means
  obtain ⟨sum, rounds, sumMeans⟩ := Single.means_one.add means (by
    refine ⟨1, by decide, by decide, ?_⟩
    rw [abs_of_nonneg (by linarith)]
    norm_num
    linarith)
  have least := rounds.ge 1 Single.means_one.onGrid (by linarith)
  exact sumMeans.isNegative_eq_false (zero_lt_one.trans_le least)

/-- The elapsed ticks over the horizon have no sign. -/
theorem fadingFactor_damping (inRange : budget.InRange) (cycles clock : ℕ) :
    Damping (budget.fadingFactor cycles clock) := by
  have upright : Single.isNegative (Single.ofNat (budget.elapsed clock) /
      (Single.ofNat cycles * (Single.one + budget.quality))) = false :=
    Single.isNegative_div (Single.isNegative_ofNat _)
      (Single.isNegative_mul (Single.isNegative_ofNat _) (isNegative_one_add inRange.quality))
  unfold fadingFactor
  dsimp only
  generalize Single.ofNat (budget.elapsed clock) /
    (Single.ofNat cycles * (Single.one + budget.quality)) = exponent at upright ⊢
  change Damping (Single.power budget.durability exponent)
  cases isNothing : Single.isNaN exponent with
  | false => exact .inl (Single.power_between inRange.durability isNothing upright)
  | true =>
      rcases Single.power_of_isNaN isNothing with isOne | isNothing
      · rw [isOne]
        exact .inl Single.between_one
      · rw [isNothing]
        exact .inr rfl

/-- Whatever the rate and the time, a budget in range is lowered when it fades. -/
theorem InRange.fade_lowers (inRange : budget.InRange) (cycles clock : ℕ) :
    LoweredFrom budget (budget.fade cycles clock) := by
  unfold fade
  split
  · exact .refl inRange
  · exact decay_lowers inRange (fadingFactor_damping inRange cycles clock)

end AttentiveReasoner.Attention.Budget
