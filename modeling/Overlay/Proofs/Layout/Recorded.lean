import Overlay.Proofs.Layout.Placements
import Overlay.Proofs.Layout.Stages

/-! What a layout records about its classes. Every class records one entry in each of the two tables, by its name;
    where class names are distinct, the entry of a class is found at every later stage, and an entry that is found is
    that of an earlier class. -/

namespace Overlay
namespace Layout

/-- One of the tables that a layout fills: what it holds at a stage, and what a class adds to it. --/
structure Ledger where
  entries : Settled → List (String × Option Int)
  entry : ClassLayout → Option Int
  initial : ∀ target, entries (.initial target) = []
  record : ∀ s l, entries (s.record l) = (l.resolved.name, entry l) :: entries s

/-- The sizes of the classes. --/
def sizeLedger : Ledger := ⟨(·.sizes.settled), (·.size), fun _ => rfl, fun _ _ => rfl⟩

/-- The sizes of their virtual tables. --/
def tableLedger : Ledger := ⟨(·.tables), (·.tableSize), fun _ => rfl, fun _ _ => rfl⟩

section
variable {target : Target} {p q : Program}

/-- Class names are distinct in a program. --/
theorem name_ne_of_ne (names : (p.classes.map (·.name)).Nodup) {i j : Nat} {c d : Class} (hij : i ≠ j)
    (hi : p.declarations[i]? = some (.ofClass c)) (hj : p.declarations[j]? = some (.ofClass d)) : c.name ≠ d.name := by
  have hpairs : p.declarations.Pairwise fun a b => ∀ c, a.toClass? = some c → ∀ d, b.toClass? = some d →
      c.name ≠ d.name := List.pairwise_filterMap.mp (List.pairwise_map.mp names)
  obtain ⟨hilt, hi⟩ := List.getElem?_eq_some_iff.mp hi
  obtain ⟨hjlt, hj⟩ := List.getElem?_eq_some_iff.mp hj
  rcases Nat.lt_or_gt_of_ne hij with h | h
  · exact List.pairwise_iff_getElem.mp hpairs i j hilt hjlt h c (by rw [hi]; rfl) d (by rw [hj]; rfl)
  · exact (List.pairwise_iff_getElem.mp hpairs j i hjlt hilt h d (by rw [hj]; rfl) c (by rw [hi]; rfl)).symm

theorem settledBefore_succ_of_length_le {i : Nat} (h : p.declarations.length ≤ i) :
    settledBefore target p (i + 1) = settledBefore target p i := by
  rw [settledBefore_eq, settledBefore_eq, List.take_of_length_le h, List.take_of_length_le (by omega)]

theorem resolved_name {s : Settled} {c : Class} {l : ClassLayout} (hl : layoutClass s c = .ok l) :
    l.resolved.name = c.name := by
  unfold layoutClass at hl
  dsimp only at hl
  split at hl
  · cases hl
  · cases hl
    rfl

namespace Ledger
variable {ledger : Ledger}

theorem lookup_record {s : Settled} {c : Class} {l : ClassLayout} (hl : layoutClass s c = .ok l) (name : String) :
    (ledger.entries (s.record l)).lookup name =
      if name = c.name then some (ledger.entry l) else (ledger.entries s).lookup name := by
  rw [ledger.record, List.lookup_cons, resolved_name hl]
  by_cases h : name = c.name
  · simp [h]
  · have hbeq : (name == c.name) = false := by simpa using h
    rw [hbeq, if_neg h]

/-- A declaration that is no class of a name leaves the entry of that name as it is. --/
theorem lookup_succ (h : (layout target p).program = .ok q) {name : String} {i : Nat}
    (hne : ∀ c, p.declarations[i]? = some (.ofClass c) → c.name ≠ name) :
    (ledger.entries (settledBefore target p (i + 1))).lookup name =
      (ledger.entries (settledBefore target p i)).lookup name := by
  rcases Nat.lt_or_ge i p.declarations.length with hlt | hge
  · obtain ⟨d, hd⟩ : ∃ d, p.declarations[i]? = some d := ⟨_, List.getElem?_eq_getElem hlt⟩
    cases hclass : d.toClass? with
    | none => rw [(layout_other h hd hclass).2]
    | some c =>
      obtain rfl := Declaration.toClass?_eq_some_iff.mp hclass
      obtain ⟨l, hl, -, hrecord⟩ := layout_class h hd
      rw [hrecord, lookup_record hl, if_neg (hne c hd).symm]
  · rw [settledBefore_succ_of_length_le hge]

/-- The entry of a class is found at every later stage. --/
theorem lookup_eq_of_lt (h : (layout target p).program = .ok q) (names : (p.classes.map (·.name)).Nodup) {i : Nat}
    {c : Class} {l : ClassLayout} (hc : p.declarations[i]? = some (.ofClass c))
    (hl : layoutClass (settledBefore target p i) c = .ok l) {j : Nat} (hij : i < j) :
    (ledger.entries (settledBefore target p j)).lookup c.name = some (ledger.entry l) := by
  -- The class itself adds the entry, and no class behind it has its name.
  induction j with
  | zero => omega
  | succ j ih =>
    rcases Nat.lt_or_ge i j with hlt | hge
    · rw [lookup_succ h fun d hd => (name_ne_of_ne names (by omega) hc hd).symm]
      exact ih hlt
    · obtain rfl : i = j := by omega
      obtain ⟨l', hl', -, hrecord⟩ := layout_class h hc
      rw [hl] at hl'
      cases hl'
      rw [hrecord, lookup_record hl, if_pos rfl]

/-- An entry that is found is that of an earlier class. --/
theorem class_of_lookup (h : (layout target p).program = .ok q) {name : String} {entry : Option Int} {j : Nat}
    (hentry : (ledger.entries (settledBefore target p j)).lookup name = some entry) :
    ∃ i < j, ∃ c, p.declarations[i]? = some (.ofClass c) ∧ c.name = name := by
  induction j with
  | zero => simp [ledger.initial] at hentry
  | succ j ih =>
    by_cases hname : ∃ c, p.declarations[j]? = some (.ofClass c) ∧ c.name = name
    · obtain ⟨c, hc, hname⟩ := hname
      exact ⟨j, by omega, c, hc, hname⟩
    · rw [lookup_succ h fun c hc heq => hname ⟨c, hc, heq⟩] at hentry
      obtain ⟨i, hi, hclass⟩ := ih hentry
      exact ⟨i, by omega, hclass⟩

/-- What is found at a stage is what is found at the end, for the classes before it. --/
theorem lookup_eq_some_iff (h : (layout target p).program = .ok q) (names : (p.classes.map (·.name)).Nodup)
    {name : String} {entry : Option Int} {j : Nat} (hj : j ≤ p.declarations.length) :
    (ledger.entries (settledBefore target p j)).lookup name = some entry ↔
      ∃ i < j, ∃ c, p.declarations[i]? = some (.ofClass c) ∧ c.name = name ∧
        (ledger.entries (layout target p).settled).lookup name = some entry := by
  have hstays : ∀ i < j, ∀ c, p.declarations[i]? = some (.ofClass c) →
      (ledger.entries (settledBefore target p j)).lookup c.name =
        (ledger.entries (layout target p).settled).lookup c.name := by
    intro i hi c hc
    obtain ⟨l, hl, -, -⟩ := layout_class h hc
    rw [lookup_eq_of_lt h names hc hl hi, ← settledBefore_length, lookup_eq_of_lt h names hc hl (by omega)]
  constructor
  · intro hentry
    obtain ⟨i, hi, c, hc, rfl⟩ := class_of_lookup h hentry
    exact ⟨i, hi, c, hc, rfl, by rw [← hstays i hi c hc, hentry]⟩
  · rintro ⟨i, hi, c, hc, rfl, hentry⟩
    rw [hstays i hi c hc, hentry]

end Ledger
end
end Layout
end Overlay
