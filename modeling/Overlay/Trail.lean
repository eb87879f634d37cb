/-! Items produced in order until all are there or a fault ends them early. What was produced before a fault
    stays known: a reader of the items meets the fault only after the last of them. -/

namespace Overlay

/-- Items in order, and the fault that ended them early, if one did. --/
structure Trail (ε α : Type) where
  items : List α
  fault : Option ε
deriving DecidableEq, Repr

namespace Trail
variable {ε α β σ : Type}

/-- All of the items. --/
def whole (items : List α) : Trail ε α := ⟨items, none⟩

/-- A fault before the first item. --/
def stop (fault : ε) : Trail ε α := ⟨[], some fault⟩

/-- The items of `t` and then those of `u`, which are never reached if `t` ends early. --/
def append (t u : Trail ε α) : Trail ε α :=
  match t.fault with
  | some _ => t
  | none => ⟨t.items ++ u.items, u.fault⟩

instance : Append (Trail ε α) := ⟨append⟩

@[simp] theorem whole_append (items : List α) (t : Trail ε α) :
    whole items ++ t = ⟨items ++ t.items, t.fault⟩ := rfl

@[simp] theorem stop_append (fault : ε) (t : Trail ε α) : stop fault ++ t = stop fault := rfl

theorem append_assoc (t u v : Trail ε α) : t ++ u ++ v = t ++ (u ++ v) := by
  change (t.append u).append v = t.append (u.append v)
  obtain ⟨_, _ | _⟩ := t
  · obtain ⟨_, _ | _⟩ := u <;> simp [append]
  · rfl

/-- The trails of the members of a list, one after the other. --/
def concatMap (f : β → Trail ε α) : List β → Trail ε α
  | [] => whole []
  | b :: bs => f b ++ concatMap f bs

/-- Feeds the members of a list to `step` in order, until it refuses one. The result is the last state and
    what the steps put out on the way. --/
def feed (step : σ → β → Except ε (σ × List α)) : σ → List β → σ × Trail ε α
  | s, [] => (s, whole [])
  | s, b :: bs =>
    match step s b with
    | .error fault => (s, stop fault)
    | .ok (next, items) =>
      let (last, trail) := feed step next bs
      (last, whole items ++ trail)

@[simp] theorem feed_nil (step : σ → β → Except ε (σ × List α)) (s : σ) :
    feed step s [] = (s, whole []) := rfl

theorem feed_cons_ok {step : σ → β → Except ε (σ × List α)} {s next : σ} {b : β} {items : List α}
    (h : step s b = .ok (next, items)) (bs : List β) :
    feed step s (b :: bs) = ((feed step next bs).1, whole items ++ (feed step next bs).2) := by
  simp [feed, h]

theorem feed_cons_error {step : σ → β → Except ε (σ × List α)} {s : σ} {b : β} {fault : ε}
    (h : step s b = .error fault) (bs : List β) : feed step s (b :: bs) = (s, stop fault) := by
  simp [feed, h]

end Trail
end Overlay
