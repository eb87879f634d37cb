import Overlay.Trail

/-! Feeds in parts. A feed of two lists goes on with the second from the state that the first has led to, unless
    the first ends it; so what each step keeps is kept by a whole feed. Where every step puts out one item, the
    item at a place is the one that the step at that place has put out. -/

namespace Overlay
namespace Trail
variable {ε α β σ : Type} {step : σ → β → Except ε (σ × List α)}

/-! ### The last state or the fault -/

/-- The last state of a feed, or the fault that ended it. --/
def reach (step : σ → β → Except ε (σ × List α)) (s : σ) (bs : List β) : Except ε σ :=
  match (feed step s bs).2.fault with
  | some fault => .error fault
  | none => .ok (feed step s bs).1

@[simp] theorem reach_nil (s : σ) : reach step s [] = .ok s := rfl

theorem reach_cons (s : σ) (b : β) (bs : List β) :
    reach step s (b :: bs) = step s b >>= fun next => reach step next.1 bs := by
  cases h : step s b with
  | error fault => simp only [reach, feed_cons_error h]; rfl
  | ok next =>
    obtain ⟨next, items⟩ := next
    simp only [reach, feed_cons_ok h]
    rfl

theorem reach_append (s : σ) (bs cs : List β) :
    reach step s (bs ++ cs) = reach step s bs >>= fun next => reach step next cs := by
  induction bs generalizing s with
  | nil => rfl
  | cons b bs ih =>
    rw [List.cons_append, reach_cons, reach_cons]
    cases step s b with
    | error fault => rfl
    | ok next => exact ih next.1

theorem reach_eq_error_iff {s : σ} {bs : List β} {fault : ε} :
    reach step s bs = .error fault ↔ (feed step s bs).2.fault = some fault := by
  unfold reach
  cases (feed step s bs).2.fault <;> simp

/-- A feed ends with a fault if a step refuses a member with it, after steps have taken all members before that. --/
theorem feed_fault_iff {s : σ} {bs : List β} {fault : ε} : (feed step s bs).2.fault = some fault ↔
    ∃ before b after next, bs = before ++ b :: after ∧ reach step s before = .ok next ∧ step next b = .error fault := by
  rw [← reach_eq_error_iff]
  constructor
  · intro h
    induction bs generalizing s with
    | nil => cases h
    | cons b bs ih =>
      rw [reach_cons] at h
      cases hb : step s b with
      | error found =>
        rw [hb] at h
        cases h
        exact ⟨[], b, bs, s, rfl, rfl, hb⟩
      | ok next =>
        rw [hb] at h
        obtain ⟨before, b', after, last, rfl, hlast, hstep⟩ := ih h
        refine ⟨b :: before, b', after, last, rfl, ?_, hstep⟩
        rw [reach_cons, hb]
        exact hlast
  · rintro ⟨before, b, after, next, rfl, hnext, hstep⟩
    rw [reach_append, hnext]
    change reach step next (b :: after) = _
    rw [reach_cons, hstep]
    rfl

/-! ### What steps keep -/

/-- A property of states that every step keeps holds at the end of a feed. --/
theorem feed_keeps {P : σ → Prop} {bs : List β}
    (keeps : ∀ s, ∀ b ∈ bs, ∀ next items, P s → step s b = .ok (next, items) → P next) {s : σ} (hs : P s) :
    P (feed step s bs).1 := by
  induction bs generalizing s with
  | nil => exact hs
  | cons b bs ih =>
    cases h : step s b with
    | error fault => rwa [feed_cons_error h]
    | ok next =>
      rw [feed_cons_ok h]
      exact ih (fun s b hb => keeps s b (List.mem_cons_of_mem _ hb))
        (keeps s b List.mem_cons_self next.1 next.2 hs h)

/-- What holds of the items that every step puts out holds of the items of a feed. --/
theorem feed_items {P : σ → Prop} {Q : α → Prop} {bs : List β}
    (keeps : ∀ s, ∀ b ∈ bs, ∀ next items, P s → step s b = .ok (next, items) → P next ∧ ∀ a ∈ items, Q a)
    {s : σ} (hs : P s) : ∀ a ∈ (feed step s bs).2.items, Q a := by
  induction bs generalizing s with
  | nil => simp [whole]
  | cons b bs ih =>
    cases h : step s b with
    | error fault => simp [feed_cons_error h, stop]
    | ok next =>
      obtain ⟨hnext, hitems⟩ := keeps s b List.mem_cons_self next.1 next.2 hs h
      intro a ha
      rw [feed_cons_ok h, whole_append, List.mem_append] at ha
      rcases ha with ha | ha
      · exact hitems a ha
      · exact ih (fun s b hb => keeps s b (List.mem_cons_of_mem _ hb)) hnext a ha

/-- What holds of every fault, in states of a kind that every step keeps, holds of the fault of a feed. --/
theorem feed_fault {P : σ → Prop} {Q : ε → Prop} {bs : List β}
    (keeps : ∀ s, ∀ b ∈ bs, ∀ next items, P s → step s b = .ok (next, items) → P next)
    (faults : ∀ s, ∀ b ∈ bs, ∀ fault, P s → step s b = .error fault → Q fault) {s : σ} (hs : P s) {fault : ε}
    (h : (feed step s bs).2.fault = some fault) : Q fault := by
  induction bs generalizing s with
  | nil => cases h
  | cons b bs ih =>
    cases hb : step s b with
    | error found =>
      rw [feed_cons_error hb] at h
      cases h
      exact faults s b List.mem_cons_self fault hs hb
    | ok next =>
      rw [feed_cons_ok hb] at h
      exact ih (fun s b hb => keeps s b (List.mem_cons_of_mem _ hb))
        (fun s b hb => faults s b (List.mem_cons_of_mem _ hb))
        (keeps s b List.mem_cons_self next.1 next.2 hs hb) h

/-- A step that does the same as another unless the other refuses for a reason of a kind leads to the same feed,
    if the feed of the other does not end for such a reason. --/
theorem feed_eq_of_agree {other : σ → β → Except ε (σ × List α)} {Kind : ε → Prop}
    (agree : ∀ s b, other s b = step s b ∨ ∃ fault, step s b = .error fault ∧ Kind fault) :
    ∀ (bs : List β) (s : σ), (∀ fault, (feed step s bs).2.fault = some fault → ¬Kind fault) →
      feed other s bs = feed step s bs
  | [], _, _ => rfl
  | b :: bs, s, hfault => by
    cases h : step s b with
    | error fault =>
      -- Both refuse, or this one does for a reason of the kind, which then ends its feed.
      rw [feed_cons_error h] at hfault ⊢
      rcases agree s b with heq | ⟨fault', hfault', hkind⟩
      · rw [feed_cons_error (heq.trans h)]
      · rw [h] at hfault'
        cases hfault'
        exact absurd hkind (hfault fault rfl)
    | ok next =>
      have heq : other s b = step s b := by
        rcases agree s b with heq | ⟨fault', hfault', -⟩
        · exact heq
        · rw [h] at hfault'
          cases hfault'
      rw [feed_cons_ok h] at hfault ⊢
      rw [feed_cons_ok (heq.trans h), feed_eq_of_agree agree bs next.1 hfault]

/-- Steps that do the same for every member lead to the same feed. --/
theorem feed_congr {other : σ → β → Except ε (σ × List α)} : ∀ {bs : List β},
    (∀ s, ∀ b ∈ bs, other s b = step s b) → ∀ s, feed other s bs = feed step s bs
  | [], _, _ => rfl
  | b :: bs, same, s => by
    have hb := same s b List.mem_cons_self
    cases h : step s b with
    | error fault => rw [feed_cons_error h, feed_cons_error (hb.trans h)]
    | ok next =>
      rw [feed_cons_ok h, feed_cons_ok (hb.trans h), feed_congr fun s b hb => same s b (List.mem_cons_of_mem _ hb)]

/-! ### Runs -/

/-- A feed without a fault: the state it begins in, the members, the items put out and the last state. --/
inductive Runs (step : σ → β → Except ε (σ × List α)) : σ → List β → List α → σ → Prop where
  | nil (s : σ) : Runs step s [] [] s
  | cons {s next last : σ} {b : β} {bs : List β} {items more : List α} (head : step s b = .ok (next, items))
      (tail : Runs step next bs more last) : Runs step s (b :: bs) (items ++ more) last

theorem runs_iff {s last : σ} {bs : List β} {items : List α} :
    Runs step s bs items last ↔ feed step s bs = (last, whole items) := by
  constructor
  · intro h
    induction h with
    | nil s => rfl
    | cons head _ ih =>
      rw [feed_cons_ok head, ih]
      rfl
  · intro h
    induction bs generalizing s items with
    | nil =>
      cases h
      exact .nil _
    | cons b bs ih =>
      cases hb : step s b with
      | error fault =>
        rw [feed_cons_error hb] at h
        cases h
      | ok next =>
        rw [feed_cons_ok hb, whole_append] at h
        cases hrest : feed step next.1 bs with
        | mk state trail =>
          obtain ⟨more, fault⟩ := trail
          rw [hrest] at h
          cases h
          exact .cons hb (ih hrest)

theorem runs_of_fault {s : σ} {bs : List β} (h : (feed step s bs).2.fault = none) :
    Runs step s bs (feed step s bs).2.items (feed step s bs).1 := by
  rw [runs_iff, whole, ← h]

theorem reach_eq_ok_iff {s last : σ} {bs : List β} :
    reach step s bs = .ok last ↔ ∃ items, Runs step s bs items last := by
  constructor
  · intro h
    unfold reach at h
    split at h
    · cases h
    · rename_i hfault
      cases h
      exact ⟨_, runs_of_fault hfault⟩
  · rintro ⟨items, run⟩
    rw [reach, runs_iff.mp run]
    rfl

/-- The items and the last state of a run are determined. --/
theorem Runs.unique {s last last' : σ} {bs : List β} {items items' : List α} (h : Runs step s bs items last)
    (h' : Runs step s bs items' last') : items' = items ∧ last' = last := by
  have heq := (runs_iff.mp h').symm.trans (runs_iff.mp h)
  cases heq
  exact ⟨rfl, rfl⟩

theorem Runs.single {s next : σ} {b : β} {items : List α} (h : step s b = .ok (next, items)) :
    Runs step s [b] items next := by
  have run := Runs.cons h (.nil next)
  rwa [List.append_nil] at run

/-- A run goes on with another from the state that it has led to. --/
theorem Runs.append {s next last : σ} {bs cs : List β} {items more : List α} (h : Runs step s bs items next)
    (h' : Runs step next cs more last) : Runs step s (bs ++ cs) (items ++ more) last := by
  induction h with
  | nil => exact h'
  | cons head _ ih =>
    rw [List.append_assoc]
    exact .cons head (ih h')

/-- A run over two lists is a run over the first and one over the second. --/
theorem Runs.split {s last : σ} {bs cs : List β} {items : List α} (h : Runs step s (bs ++ cs) items last) :
    ∃ middle first second, items = first ++ second ∧ Runs step s bs first middle ∧
      Runs step middle cs second last := by
  induction bs generalizing s items with
  | nil => exact ⟨s, [], items, rfl, .nil s, h⟩
  | cons b bs ih =>
    cases h with
    | cons head tail =>
      obtain ⟨middle, first, second, rfl, hfirst, hsecond⟩ := ih tail
      exact ⟨middle, _, second, (List.append_assoc _ _ _).symm, .cons head hfirst, hsecond⟩

/-- A run of which the items put every member down again. --/
def Repeats (step : σ → β → Except ε (σ × List α)) (put : α → List β) (s : σ) (bs : List β) (last : σ) : Prop :=
  ∃ items, Runs step s bs items last ∧ items.flatMap put = bs

section
variable {put : α → List β}

theorem Repeats.nil (s : σ) : Repeats step put s [] s := ⟨[], .nil s, rfl⟩

theorem Repeats.single {s next : σ} {b : β} {a : α} (h : step s b = .ok (next, [a])) (again : put a = [b]) :
    Repeats step put s [b] next :=
  ⟨[a], .single h, by rw [List.flatMap_singleton, again]⟩

theorem Repeats.append {s next last : σ} {bs cs : List β} (h : Repeats step put s bs next)
    (h' : Repeats step put next cs last) : Repeats step put s (bs ++ cs) last := by
  obtain ⟨items, run, again⟩ := h
  obtain ⟨more, run', again'⟩ := h'
  exact ⟨items ++ more, run.append run', by rw [List.flatMap_append, again, again']⟩

end

/-! ### Members that are passed over -/

/-- A feed in which the members that a view passes over neither change the state nor put out anything that is picked,
    while the others do what `inner` does to their views: what is picked of it is the feed of the views. --/
theorem feed_filterMap {γ δ : Type} {inner : σ → γ → Except ε (σ × List δ)} {view : β → Option γ} {pick : α → Option δ}
    (seen : ∀ s b c, view b = some c → inner s c = (step s b).map fun next => (next.1, next.2.filterMap pick))
    (passed : ∀ s b, view b = none → ∃ items, step s b = .ok (s, items) ∧ items.filterMap pick = [])
    (s : σ) (bs : List β) : feed inner s (bs.filterMap view) =
      ((feed step s bs).1, ⟨(feed step s bs).2.items.filterMap pick, (feed step s bs).2.fault⟩) := by
  induction bs generalizing s with
  | nil => rfl
  | cons b bs ih =>
    cases hview : view b with
    | none =>
      obtain ⟨items, hstep, hitems⟩ := passed s b hview
      rw [List.filterMap_cons_none hview, ih, feed_cons_ok hstep, whole_append, List.filterMap_append, hitems]
      rfl
    | some c =>
      have hinner := seen s b c hview
      rw [List.filterMap_cons_some hview]
      cases hstep : step s b with
      | error fault =>
        rw [hstep] at hinner
        rw [feed_cons_error hinner, feed_cons_error hstep]
        rfl
      | ok next =>
        rw [hstep] at hinner
        rw [feed_cons_ok hinner, feed_cons_ok hstep, ih, whole_append, whole_append, List.filterMap_append]

/-! ### Changed trails -/

/-- A trail with its items and its fault changed, each by a function. --/
def change {ε' α' : Type} (e : ε → ε') (r : α → α') (t : Trail ε α) : Trail ε' α' := ⟨t.items.map r, t.fault.map e⟩

theorem change_append {ε' α' : Type} (e : ε → ε') (r : α → α') (t u : Trail ε α) :
    (t ++ u).change e r = t.change e r ++ u.change e r := by
  obtain ⟨items, _ | fault⟩ := t
  · exact congrArg (Trail.mk · _) List.map_append
  · rfl

theorem concatMap_change {ε' α' β' : Type} {e : ε → ε'} {r : α → α'} {b : β → β'} {f : β → Trail ε α}
    {f' : β' → Trail ε' α'} (h : ∀ x, f' (b x) = (f x).change e r) (xs : List β) :
    concatMap f' (xs.map b) = (concatMap f xs).change e r := by
  induction xs with
  | nil => rfl
  | cons x xs ih => rw [List.map_cons, concatMap, concatMap, h, ih, change_append]

/-- A step that does to views of the states, and to changed members, what another does to the states and the members
    leads to the view of its feed. This may ask for states of a kind that every step keeps. --/
theorem feed_view {σ' ε' α' β' : Type} {other : σ' → β' → Except ε' (σ' × List α')} {v : σ → σ'} {e : ε → ε'}
    {r : α → α'} {b : β → β'} {P : σ → Prop} (keeps : ∀ s x next items, P s → step s x = .ok (next, items) → P next)
    (h : ∀ s x, P s → other (v s) (b x) = ((step s x).map fun next => (v next.1, next.2.map r)).mapError e)
    {s : σ} (hs : P s) (xs : List β) :
    feed other (v s) (xs.map b) = (v (feed step s xs).1, (feed step s xs).2.change e r) := by
  induction xs generalizing s with
  | nil => rfl
  | cons x xs ih =>
    have hx := h s x hs
    cases hstep : step s x with
    | error fault =>
      rw [hstep] at hx
      rw [List.map_cons, feed_cons_error hx, feed_cons_error hstep]
      rfl
    | ok next =>
      rw [hstep] at hx
      rw [List.map_cons, feed_cons_ok hx, feed_cons_ok hstep, ih (keeps s x next.1 next.2 hs hstep), change_append]
      rfl

/-- A step that does to changed members what another does to the members leads to the changed feed. --/
theorem feed_change {ε' α' β' : Type} {other : σ → β' → Except ε' (σ × List α')} {e : ε → ε'} {r : α → α'} {b : β → β'}
    (h : ∀ s x, other s (b x) = ((step s x).map fun next => (next.1, next.2.map r)).mapError e) (s : σ) (xs : List β) :
    feed other s (xs.map b) = ((feed step s xs).1, (feed step s xs).2.change e r) :=
  feed_view (v := id) (P := fun _ => True) (fun _ _ _ _ _ _ => trivial) (fun s x _ => h s x) trivial xs

/-! ### Steps by their place -/

/-- In a feed without a fault, of steps that put out one item each, the step at a place goes from the state of the
    feed up to there to that of the feed up to the next place, and its item stands at that place. --/
theorem feed_getElem? (single : ∀ s b next items, step s b = .ok (next, items) → ∃ a, items = [a]) :
    ∀ {bs : List β} {s : σ}, (feed step s bs).2.fault = none → ∀ {i : Nat} {b : β}, bs[i]? = some b →
      ∃ a, (feed step s bs).2.items[i]? = some a ∧
        step (feed step s (bs.take i)).1 b = .ok ((feed step s (bs.take (i + 1))).1, [a])
  | [], _, _, _, _, hb => by simp at hb
  | c :: bs, s, h, i, b, hb => by
    cases hc : step s c with
    | error fault =>
      rw [feed_cons_error hc] at h
      cases h
    | ok next =>
      obtain ⟨next, items⟩ := next
      obtain ⟨a, rfl⟩ := single s c next items hc
      rw [feed_cons_ok hc] at h ⊢
      cases i with
      | zero =>
        rw [List.getElem?_cons_zero, Option.some.injEq] at hb
        subst hb
        exact ⟨a, rfl, by rw [List.take_succ_cons, feed_cons_ok hc]; exact hc⟩
      | succ i =>
        rw [List.getElem?_cons_succ] at hb
        obtain ⟨a', ha', hstep⟩ := feed_getElem? single h hb
        refine ⟨a', ha', ?_⟩
        rw [List.take_succ_cons, List.take_succ_cons, feed_cons_ok hc, feed_cons_ok hc]
        exact hstep

theorem length_items (single : ∀ s b next items, step s b = .ok (next, items) → ∃ a, items = [a]) :
    ∀ {bs : List β} {s : σ}, (feed step s bs).2.fault = none → (feed step s bs).2.items.length = bs.length
  | [], _, _ => rfl
  | b :: bs, s, h => by
    cases hb : step s b with
    | error fault =>
      rw [feed_cons_error hb] at h
      cases h
    | ok next =>
      obtain ⟨next, items⟩ := next
      obtain ⟨a, rfl⟩ := single s b next items hb
      rw [feed_cons_ok hb] at h ⊢
      simp [length_items single h]

end Trail
end Overlay
