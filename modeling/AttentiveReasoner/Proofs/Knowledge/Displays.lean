import AttentiveReasoner.Knowledge.Concept
import AttentiveReasoner.Proofs.Attention.Bag.Indexes

/-!
Contract: what the notices of a concept come to for the observers they are given to.

Owns:
- whom a notice is for, the text it carries, and what it makes of a display;
- that a notice changes no display but that of its observer, and that a recording which
  is showing afterwards was shown that text last;
- the announcement of a change, and that every operation on concepts announces what it
  changes.

Does not own: the text of a concept, and when a concept is changed.

The laws are about recordings, which keep what they are shown. All journals write to one
log, from which the texts of one of them cannot be told apart.
-/

namespace AttentiveReasoner.Knowledge

open AttentiveReasoner.Attention
open AttentiveReasoner.Numeric

/-! ## Notices -/

namespace Notice

/-- Whom a notice is for. -/
def observer : Notice → Observer
  | .start observer _ _ => observer
  | .post observer _ => observer
  | .refresh observer _ => observer
  | .stop observer => observer
  | .detach observer => observer

/-- The text that a notice carries. -/
def text? : Notice → Option String
  | .start _ _ text => some text
  | .post _ text => some text
  | .refresh _ text => some text
  | .stop _ => none
  | .detach _ => none

/-- The display of an observer who is shown a text. -/
def shownTo (observer : Observer) (text : String) (display : Display) : Display :=
  { display with
    showing := true
    shown :=
      match observer with
      | .recording _ => display.shown ++ [text]
      | .journal _ => display.shown }

/-- What a notice makes of the display of its observer. -/
def effect : Notice → Display → Display
  | .start observer concept text, display =>
      shownTo observer text { display with concept := concept, started := display.started + 1 }
  | .post observer text, display => shownTo observer text display
  | .refresh observer text, display =>
      if display.showing then shownTo observer text display else display
  | .stop _, display => { display with showing := false }
  | .detach _, display => { display with showing := false, detached := true }

end Notice

namespace Displays

variable {other : Observer} {name : String}

theorem of_update (displays : Displays) (observer other : Observer)
    (change : Display → Display) :
    (displays.update observer change).of other =
      if other = observer then change (displays.of observer) else displays.of other := by
  by_cases same : other = observer
  · simp [of, update, same]
  · simp only [of, update, List.lookup_cons, beq_eq_false_iff_ne.mpr same,
      Bag.lookup_filter_ne, if_neg same]

@[simp] theorem of_write (displays : Displays) (observer other : Observer) (message : String) :
    (displays.write observer message).of other = displays.of other := by
  cases observer <;> rfl

theorem of_post_other (displays : Displays) {observer : Observer} (text : String)
    (different : other ≠ observer) : (displays.post observer text).of other = displays.of other := by
  rw [post, of_write, of_update, if_neg different]

theorem shown_of_post (displays : Displays) (name text : String) :
    ((displays.post (.recording name) text).of (.recording name)).shown.getLast? = some text := by
  rw [post, of_write, of_update, if_pos rfl]
  exact List.getLast?_concat

/-- A notice changes no display but that of its observer. -/
theorem of_receive_other (displays : Displays) {notice : Notice}
    (different : other ≠ notice.observer) :
    (displays.receive notice).of other = displays.of other := by
  cases notice with
  | start observer concept text =>
      have apart : other ≠ observer := different
      rw [receive, of_post_other _ text apart, of_update, if_neg apart]
  | post observer text => exact of_post_other displays text different
  | refresh observer text =>
      rw [receive]
      split
      · exact of_post_other displays text different
      · rfl
  | stop observer =>
      have apart : other ≠ observer := different
      rw [receive, of_update, if_neg apart]
  | detach observer =>
      have apart : other ≠ observer := different
      rw [receive, of_write, of_update, if_neg apart]

theorem of_post (displays : Displays) (observer : Observer) (text : String) :
    (displays.post observer text).of observer =
      Notice.shownTo observer text (displays.of observer) := by
  rw [post, of_write, of_update, if_pos rfl]
  rfl

theorem of_receive_self (displays : Displays) (notice : Notice) :
    (displays.receive notice).of notice.observer =
      notice.effect (displays.of notice.observer) := by
  cases notice with
  | start observer concept text =>
      simp only [receive, Notice.observer, of_post, of_update, if_true, Notice.effect]
  | post observer text => exact of_post displays observer text
  | refresh observer text =>
      cases showing : (displays.of observer).showing with
      | true =>
          simp only [receive, Notice.observer, Notice.effect, showing, if_true]
          exact of_post displays observer text
      | false =>
          simp only [receive, Notice.observer, Notice.effect, showing, Bool.false_eq_true, if_false]
  | stop observer => simp only [receive, Notice.observer, of_update, if_true, Notice.effect]
  | detach observer =>
      simp only [receive, Notice.observer, of_write, of_update, if_true, Notice.effect]

theorem receiveAll_append (displays : Displays) (notices more : List Notice) :
    displays.receiveAll (notices ++ more) = (displays.receiveAll notices).receiveAll more :=
  List.foldl_append

theorem of_receive (displays : Displays) (notice : Notice) (observer : Observer) :
    (displays.receive notice).of observer =
      if notice.observer = observer then notice.effect (displays.of observer)
      else displays.of observer := by
  split
  · rename_i addressed
    rw [← addressed]
    exact of_receive_self displays notice
  · rename_i unheard
    exact of_receive_other displays (Ne.symm unheard)

/-- A notice for the observer of a concept changes the display of that observer alone. -/
theorem of_receiveAll_tell (displays : Displays) (concept : Concept) {told : Observer → Notice}
    (addresses : ∀ observer, (told observer).observer = observer) (observer : Observer) :
    (displays.receiveAll (concept.tell told)).of observer =
      if concept.observer = some observer then (told observer).effect (displays.of observer)
      else displays.of observer := by
  unfold Concept.tell
  cases concept.observer with
  | none => rfl
  | some watching =>
      change (displays.receive (told watching)).of observer = _
      rw [of_receive, addresses]
      by_cases same : watching = observer
      · subst same
        simp
      · simp [same]

/-- A recording that is showing after a notice was shown the text of the notice. -/
theorem shown_of_receive (displays : Displays) {notice : Notice}
    (addressed : notice.observer = .recording name)
    (showing : ((displays.receive notice).of (.recording name)).showing = true) :
    ∃ text, notice.text? = some text ∧
      ((displays.receive notice).of (.recording name)).shown.getLast? = some text := by
  cases notice with
  | start observer concept text =>
      obtain rfl : observer = .recording name := addressed
      exact ⟨text, rfl, shown_of_post _ name text⟩
  | post observer text =>
      obtain rfl : observer = .recording name := addressed
      exact ⟨text, rfl, shown_of_post displays name text⟩
  | refresh observer text =>
      obtain rfl : observer = .recording name := addressed
      refine ⟨text, rfl, ?_⟩
      rw [receive] at showing ⊢
      split at showing
      · rename_i before
        rw [if_pos before]
        exact shown_of_post displays name text
      · contradiction
  | stop observer =>
      obtain rfl : observer = .recording name := addressed
      rw [receive, of_update, if_pos rfl] at showing
      contradiction
  | detach observer =>
      obtain rfl : observer = .recording name := addressed
      rw [receive, of_write, of_update, if_pos rfl] at showing
      contradiction

/-- A recording that is showing after notices was shown the text of one of them last, or
none of them was for it. -/
theorem receiveAll_cases (displays : Displays) {notices : List Notice}
    (showing : ((displays.receiveAll notices).of (.recording name)).showing = true) :
    ((∀ notice ∈ notices, notice.observer ≠ .recording name) ∧
        (displays.receiveAll notices).of (.recording name) = displays.of (.recording name)) ∨
      ∃ notice ∈ notices, notice.observer = .recording name ∧ ∃ text,
        notice.text? = some text ∧
          ((displays.receiveAll notices).of (.recording name)).shown.getLast? = some text := by
  induction notices generalizing displays with
  | nil => exact .inl ⟨fun _ member => (nomatch member), rfl⟩
  | cons first rest inductionHypothesis =>
      rcases inductionHypothesis (displays.receive first) showing with
        ⟨unheard, unchanged⟩ | ⟨notice, member, addressed, text, carried, last⟩
      · by_cases addressed : first.observer = .recording name
        · have shown : ((displays.receiveAll (first :: rest)).of (.recording name)) =
              (displays.receive first).of (.recording name) := unchanged
          rw [shown] at showing ⊢
          obtain ⟨text, carried, last⟩ := shown_of_receive displays addressed showing
          exact .inr ⟨first, List.mem_cons_self, addressed, text, carried, last⟩
        · refine .inl ⟨List.forall_mem_cons.mpr ⟨addressed, unheard⟩, ?_⟩
          exact unchanged.trans (of_receive_other displays (Ne.symm addressed))
      · exact .inr ⟨notice, List.mem_cons_of_mem _ member, addressed, text, carried, last⟩

end Displays

/-! ## Announcing a change -/

/-- Notices announce the change of concepts into another one. They carry nothing but its
text, to its observer, and none who observed one of the concepts goes unheard. -/
structure Announces (leaving : List Concept) (changed : Concept) (notices : List Notice) :
    Prop where
  carries : ∀ notice ∈ notices, ∀ text, notice.text? = some text →
    changed.observer = some notice.observer ∧ text = changed.text
  reaches : ∀ concept ∈ leaving, ∀ observer, concept.observer = some observer →
    ∃ notice ∈ notices, notice.observer = observer

namespace Concept

variable {concept before : Concept}

theorem mem_tell {told : Observer → Notice} {notice : Notice} :
    notice ∈ concept.tell told ↔
      ∃ observer, concept.observer = some observer ∧ told observer = notice := by
  rw [tell, Option.mem_toList, Option.map_eq_some_iff]

/-- A notice of one form, given to the observer of a concept. -/
theorem tell_announces {told : Observer → Notice} {changed : Concept}
    (addresses : ∀ observer, (told observer).observer = observer)
    (carries : ∀ observer, concept.observer = some observer → ∀ text,
      (told observer).text? = some text → changed.observer = some observer ∧ text = changed.text)
    (same : before.observer = concept.observer) :
    Announces [before] changed (concept.tell told) where
  carries := by
    intro notice member text carried
    obtain ⟨observer, observes, rfl⟩ := mem_tell.mp member
    rw [addresses]
    exact carries observer observes text carried
  reaches := by
    intro left member observer observes
    obtain rfl := List.mem_singleton.mp member
    rw [same] at observes
    exact ⟨told observer, mem_tell.mpr ⟨observer, observes, rfl⟩, addresses observer⟩

theorem refresh_announces (same : before.observer = concept.observer) :
    Announces [before] concept.refresh.1 concept.refresh.2 := by
  refine tell_announces (fun _ => rfl) ?_ same
  intro observer observes text carried
  exact ⟨observes, (Option.some.inj carried).symm⟩

theorem play_announces (concept : Concept) : Announces [concept] concept concept.play := by
  refine tell_announces (fun _ => rfl) ?_ rfl
  intro observer observes text carried
  exact ⟨observes, (Option.some.inj carried).symm⟩

theorem stop_announces (concept : Concept) : Announces [concept] concept concept.stop :=
  tell_announces (fun _ => rfl) (fun _ _ _ carried => nomatch carried) rfl

theorem detach_announces (concept : Concept) :
    Announces [concept] concept.detach.1 concept.detach.2 :=
  tell_announces (fun _ => rfl) (fun _ _ _ carried => nomatch carried) rfl

theorem startPlay_announces (concept : Concept) (observer : Observer) :
    Announces [concept] (concept.startPlay observer).1 (concept.startPlay observer).2 where
  carries := by
    intro notice member text carried
    rcases List.mem_append.mp member with dropped | started
    · obtain ⟨earlier, _, rfl⟩ := mem_tell.mp dropped
      contradiction
    · obtain rfl := List.mem_singleton.mp started
      exact ⟨rfl, (Option.some.inj carried).symm⟩
  reaches := by
    intro earlier member previous observes
    obtain rfl := List.mem_singleton.mp member
    have told : Notice.detach previous ∈ earlier.tell .detach :=
      mem_tell.mpr ⟨previous, observes, rfl⟩
    exact ⟨.detach previous, List.mem_append_left _ told, rfl⟩

/-- Absorbing drops an observer who would be the second one, and refreshes. -/
theorem absorb_cases [Arithmetic] (concept other : Concept) :
    ∃ merged : Concept, merged.observer = concept.observer.or other.observer ∧
      concept.absorb other =
        (merged.refresh.1,
          (if concept.observer.isSome then other.tell .detach else []) ++ merged.refresh.2) :=
  ⟨_, rfl, rfl⟩

theorem absorb_announces [Arithmetic] (concept other : Concept) (same : before.observer = concept.observer) :
    Announces [before, other] (concept.absorb other).1 (concept.absorb other).2 := by
  obtain ⟨merged, observed, absorbed⟩ := absorb_cases concept other
  have refreshed : Announces [merged] merged.refresh.1 merged.refresh.2 := refresh_announces rfl
  have heard : ∀ observer, merged.observer = some observer →
      ∃ notice ∈ merged.refresh.2, notice.observer = observer :=
    refreshed.reaches merged List.mem_cons_self
  rw [absorbed]
  constructor
  case carries =>
    intro notice member text carried
    rcases List.mem_append.mp member with dropped | refreshes
    · split at dropped
      · obtain ⟨observer, _, rfl⟩ := mem_tell.mp dropped
        contradiction
      · contradiction
    · exact refreshed.carries notice refreshes text carried
  case reaches =>
    intro left member observer observes
    by_cases own : merged.observer = some observer
    · obtain ⟨notice, refreshes, addressed⟩ := heard observer own
      exact ⟨notice, List.mem_append_right _ refreshes, addressed⟩
    · rcases List.mem_cons.mp member with rfl | member
      · rw [observed, ← same, observes] at own
        contradiction
      · obtain rfl := List.mem_singleton.mp member
        have occupied : concept.observer.isSome = true := by
          cases resident : concept.observer with
          | some _ => rfl
          | none =>
              rw [observed, resident, observes] at own
              contradiction
        have told : Notice.detach observer ∈ left.tell .detach :=
          mem_tell.mpr ⟨observer, observes, rfl⟩
        rw [if_pos occupied]
        exact ⟨.detach observer, List.mem_append_left _ told, rfl⟩

end Concept

end AttentiveReasoner.Knowledge
