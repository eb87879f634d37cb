import Overlay.Proofs.Build.References
import Overlay.Proofs.Layout.Lookups
import Overlay.Proofs.Layout.Recorded
import Overlay.Proofs.Layout.Renumbered
import Overlay.Proofs.Layout.TablePointers

/-! Layouts of the same declarations in different orders. A class asks for the sizes and the tables of the names that
    it refers to, and an answer is known for those that are declared before it; where these are the same names in both
    orders, the class has the same layout in both. The induction is along the second order: every stage of its layout
    holds what the layout of the first order says in the end of the classes that the second has reached. -/

namespace Overlay

/-- A class of a name is declared before the place `i`. --/
def Program.DeclaresBefore (p : Program) (i : Nat) (name : String) : Prop := name ∈ (p.first i).classes.map (·.name)

instance (p : Program) (i : Nat) (name : String) : Decidable (p.DeclaresBefore i name) :=
  inferInstanceAs (Decidable (_ ∈ _))

/-- A class without its lines; two orders of the same declarations differ in them. --/
def Class.lineless (c : Class) : Class := c.renumber fun _ => 0

def Declaration.lineless (d : Declaration) : Declaration := d.renumber fun _ => 0

/-- Two orders of the same declarations, in which the same of the names that a class refers to are declared before it. --/
structure Program.Reordered (p p' : Program) : Prop where
  same : (p.declarations.map Declaration.lineless).Perm (p'.declarations.map Declaration.lineless)
  references : ∀ (i j : Nat) (c c' : Class), p.declarations[i]? = some (.ofClass c) →
    p'.declarations[j]? = some (.ofClass c') → c.name = c'.name →
    ∀ name, c.Refers name → (p.DeclaresBefore i name ↔ p'.DeclaresBefore j name)

section
variable {p p' : Program}

/-! ### Declarations before a place -/

theorem declaresBefore_iff {i : Nat} {name : String} : p.DeclaresBefore i name ↔
    ∃ j < i, ∃ c, p.declarations[j]? = some (.ofClass c) ∧ c.name = name := by
  constructor
  · intro h
    obtain ⟨c, hc, rfl⟩ := List.mem_map.mp h
    obtain ⟨j, hj⟩ := List.getElem?_of_mem (Program.mem_classes.mp hc)
    have hlt : j < i := Nat.lt_of_lt_of_le (List.getElem?_eq_some_iff.mp hj).1 (List.length_take_le _ _)
    exact ⟨j, hlt, c, (List.getElem?_take_of_lt hlt).symm.trans hj, rfl⟩
  · rintro ⟨j, hlt, c, hc, rfl⟩
    have hmem := List.mem_of_getElem? ((List.getElem?_take_of_lt hlt).trans hc)
    exact List.mem_map.mpr ⟨c, Program.mem_classes.mpr hmem, rfl⟩

theorem declaresBefore_succ {i : Nat} {d : Declaration} (hd : p.declarations[i]? = some d) {name : String} :
    p.DeclaresBefore (i + 1) name ↔ p.DeclaresBefore i name ∨ ∃ c, d.toClass? = some c ∧ c.name = name := by
  simp only [declaresBefore_iff, Declaration.toClass?_eq_some_iff]
  constructor
  · rintro ⟨j, hj, c, hc, hname⟩
    rcases Nat.lt_or_ge j i with hlt | hge
    · exact Or.inl ⟨j, hlt, c, hc, hname⟩
    · obtain rfl : j = i := by omega
      exact Or.inr ⟨c, Option.some.inj (hd.symm.trans hc), hname⟩
  · rintro (⟨j, hj, c, hc, hname⟩ | ⟨c, rfl, hname⟩)
    · exact ⟨j, by omega, c, hc, hname⟩
    · exact ⟨i, by omega, c, hd, hname⟩

theorem declaresBefore_length {name : String} : p.DeclaresBefore p.declarations.length name ↔
    name ∈ p.classes.map (·.name) := by
  rw [Program.DeclaresBefore, Program.first, List.take_length]

/-! ### Two orders -/

theorem Class.lineless_name (c : Class) : c.lineless.name = c.name := Class.renumber_name _ c

theorem Class.refers_lineless {c : Class} {name : String} : c.lineless.Refers name ↔ c.Refers name := by
  have hfields : c.lineless.fields = c.fields.map (Variable.renumber fun _ => 0) := Class.fields_renumber _ c
  have hbases : c.lineless.bases = c.bases := Class.renumber_bases _ c
  rw [Class.Refers, Class.Refers, hbases, hfields]
  simp [Variable.renumber]

namespace Program.Reordered
variable (h : p.Reordered p')
include h

theorem counterpart {j : Nat} {c' : Class} (hc' : p'.declarations[j]? = some (.ofClass c')) :
    ∃ (i : Nat) (c : Class), p.declarations[i]? = some (.ofClass c) ∧ c.lineless = c'.lineless := by
  have hmem : (Declaration.ofClass c').lineless ∈ p.declarations.map Declaration.lineless :=
    h.same.mem_iff.mpr (List.mem_map_of_mem (List.mem_of_getElem? hc'))
  obtain ⟨d, hd, heq⟩ := List.mem_map.mp hmem
  obtain ⟨i, hi⟩ := List.getElem?_of_mem hd
  cases d with
  | ofClass c => exact ⟨i, c, hi, Declaration.ofClass.inj heq⟩
  | _ => cases heq

theorem lineless_eq (names : (p.classes.map (·.name)).Nodup) {i j : Nat} {c c' : Class}
    (hc : p.declarations[i]? = some (.ofClass c)) (hc' : p'.declarations[j]? = some (.ofClass c'))
    (hname : c.name = c'.name) : c.lineless = c'.lineless := by
  obtain ⟨k, d, hd, hlineless⟩ := h.counterpart hc'
  have hsame : d.name = c.name := by rw [hname, ← c'.lineless_name, ← hlineless, d.lineless_name]
  obtain rfl : k = i := by
    by_contra hne
    exact Layout.name_ne_of_ne names hne hd hc hsame
  obtain rfl : d = c := by simpa [hc] using hd.symm
  exact hlineless

theorem symm (names : (p.classes.map (·.name)).Nodup) : p'.Reordered p where
  same := h.same.symm
  references := fun j i c' c hc' hc hname name hrefers => by
    have hlineless := h.lineless_eq names hc hc' hname.symm
    rw [← Class.refers_lineless, ← hlineless, Class.refers_lineless] at hrefers
    exact (h.references i j c c' hc hc' hname.symm name hrefers).symm

theorem declares_iff {name : String} : name ∈ p.classes.map (·.name) ↔ name ∈ p'.classes.map (·.name) := by
  have hnames : ∀ r : Program, r.classes.map (·.name) =
      ((r.declarations.map Declaration.lineless).filterMap Declaration.toClass?).map (·.name) := fun r => by
    have hclasses : (r.declarations.map Declaration.lineless).filterMap Declaration.toClass? =
        r.classes.map Class.lineless := r.classes_renumber _
    rw [hclasses, List.map_map]
    exact List.map_congr_left fun c _ => c.lineless_name.symm
  rw [hnames p, hnames p']
  exact ((h.same.filterMap _).map _).mem_iff

end Program.Reordered
end

/-! ### What is settled about a name -/

namespace Layout

/-- What is settled about a name: the size of the class, and that of its virtual table. --/
def Settled.about (s : Settled) (name : String) : Option (Option Int) × Option (Option Int) :=
  (s.sizes.settled.lookup name, s.tables.lookup name)

/-- A state that holds what `last` says of the classes before the place `i`, and nothing else. --/
structure Settled.Mirrors (last : Settled) (p : Program) (i : Nat) (s : Settled) : Prop where
  target : s.sizes.target = last.sizes.target
  classes : s.sizes.classes = []
  declared : ∀ name, p.DeclaresBefore i name → s.about name = last.about name
  undeclared : ∀ name, ¬p.DeclaresBefore i name → s.about name = (none, none)

section
variable {target : Target} {p p' q : Program} {s s' last : Settled} {c c' : Class} {l : ClassLayout}

theorem about_record (hl : layoutClass s c = .ok l) (name : String) :
    (s.record l).about name = if name = c.name then (some l.size, some l.tableSize) else s.about name := by
  have hsize := sizeLedger.lookup_record hl name
  have htable := tableLedger.lookup_record hl name
  split
  · rename_i heq
    rw [if_pos heq] at hsize htable
    exact Prod.ext hsize htable
  · rename_i hne
    rw [if_neg hne] at hsize htable
    exact Prod.ext hsize htable

theorem about_settledBefore (hq : (layout target p).program = .ok q) (names : (p.classes.map (·.name)).Nodup)
    {i j : Nat} (hc : p.declarations[i]? = some (.ofClass c)) (hl : layoutClass (settledBefore target p i) c = .ok l)
    (hij : i < j) : (settledBefore target p j).about c.name = (some l.size, some l.tableSize) :=
  Prod.ext (sizeLedger.lookup_eq_of_lt hq names hc hl hij) (tableLedger.lookup_eq_of_lt hq names hc hl hij)

theorem about_settled (hq : (layout target p).program = .ok q) (names : (p.classes.map (·.name)).Nodup) {i : Nat}
    (hc : p.declarations[i]? = some (.ofClass c)) (hl : layoutClass (settledBefore target p i) c = .ok l) :
    (layout target p).settled.about c.name = (some l.size, some l.tableSize) := by
  rw [← settledBefore_length]
  exact about_settledBefore hq names hc hl (List.getElem?_eq_some_iff.mp hc).1

theorem mirrors_settledBefore (hq : (layout target p).program = .ok q) (names : (p.classes.map (·.name)).Nodup)
    (i : Nat) : (layout target p).settled.Mirrors p i (settledBefore target p i) where
  target := (settledBefore_sizes i).1.trans settled_target.symm
  classes := (settledBefore_sizes i).2
  declared := fun name hname => by
    obtain ⟨j, hj, c, hc, rfl⟩ := declaresBefore_iff.mp hname
    obtain ⟨l, hl, -, -⟩ := layout_class hq hc
    rw [about_settledBefore hq names hc hl hj, about_settled hq names hc hl]
  undeclared := fun name hname => by
    have hnone : ∀ ledger : Ledger, (ledger.entries (settledBefore target p i)).lookup name = none := fun ledger => by
      by_contra hne
      obtain ⟨entry, hentry⟩ := Option.ne_none_iff_exists'.mp hne
      exact hname (declaresBefore_iff.mpr (ledger.class_of_lookup hq hentry))
    exact Prod.ext (hnone sizeLedger) (hnone tableLedger)

theorem Settled.Mirrors.about_eq {i j : Nat} (h : last.Mirrors p i s) (h' : last.Mirrors p' j s') {name : String}
    (agree : p.DeclaresBefore i name ↔ p'.DeclaresBefore j name) : s'.about name = s.about name := by
  by_cases hname : p.DeclaresBefore i name
  · rw [h.declared name hname, h'.declared name (agree.mp hname)]
  · rw [h.undeclared name hname, h'.undeclared name fun hname' => hname (agree.mpr hname')]

/-! ### One class -/

theorem sizeOf?_congr {sizes sizes' : SizeTable} (htarget : sizes'.target = sizes.target) (hclasses : sizes.classes = [])
    (hclasses' : sizes'.classes = []) {type : String}
    (h : sizes'.settled.lookup (Text.strip type) = sizes.settled.lookup (Text.strip type)) :
    sizes'.sizeOf? type = sizes.sizeOf? type := by
  rw [sizeOf?_eq_direct hclasses', sizeOf?_eq_direct hclasses, SizeTable.direct?, SizeTable.direct?, htarget, h]

/-- The class gets the same answers in two orders if the same of the names that it refers to are declared before. --/
theorem Settled.Mirrors.sameAnswers {i j : Nat} (h : last.Mirrors p i s) (h' : last.Mirrors p' j s')
    (plain : ∀ name, c.Refers name → Text.strip name = name)
    (agree : ∀ name, c.Refers name → (p.DeclaresBefore i name ↔ p'.DeclaresBefore j name)) : SameAnswers s s' c := by
  have htarget : s'.sizes.target = s.sizes.target := h'.target.trans h.target.symm
  have hsize : ∀ name, c.Refers name → s'.sizes.sizeOf? name = s.sizes.sizeOf? name := fun name hname => by
    refine sizeOf?_congr htarget h.classes h'.classes ?_
    rw [plain name hname]
    exact congrArg Prod.fst (h.about_eq h' (agree name hname))
  have htable : ∀ name, c.Refers name → s'.tables.lookup name = s.tables.lookup name := fun name hname =>
    congrArg Prod.snd (h.about_eq h' (agree name hname))
  refine ⟨htarget, fun base hbase => ?_, fun base hbase => ?_, fun v hv => hsize v.type (Or.inr ⟨v, hv, rfl⟩)⟩
  · rw [Settled.baseSize?, Settled.baseSize?, hsize base (Or.inl hbase), htable base (Or.inl hbase)]
  · rw [Settled.tableSize?, Settled.tableSize?, htable base (Or.inl hbase)]

theorem layoutClass_lineless (hc : c.WellBound) (same : SameAnswers s s' c) (hlines : c.lineless = c'.lineless)
    (hl : layoutClass s c = .ok l) : ∃ l', layoutClass s' c' = .ok l' ∧ l'.resolved.lineless = l.resolved.lineless ∧
      l'.size = l.size ∧ l'.tableSize = l.tableSize := by
  have hclass := layoutClass_renumber (g := fun _ => 0) rfl s' c
  have hother := layoutClass_renumber (g := fun _ => 0) rfl s' c'
  rw [show c'.renumber (fun _ => 0) = c.renumber fun _ => 0 from hlines.symm, hclass, layoutClass_congr hc same, hl]
    at hother
  cases hl' : layoutClass s' c' with
  | error fault =>
    rw [hl'] at hother
    cases hother
  | ok l' =>
    rw [hl'] at hother
    have heq : l.renumber (fun _ => 0) = l'.renumber fun _ => 0 := Except.ok.inj hother
    injection heq with hresolved hsize htable
    exact ⟨l', rfl, hresolved.symm, hsize.symm, htable.symm⟩

/-! ### The second order -/

section
variable (hq : (layout target p).program = .ok q) (hp : p.WellBound)
  (plain : ∀ c ∈ p.classes, ∀ name, c.Refers name → Text.strip name = name)
  (h : p.Reordered p')
include hq hp plain h

/-- Where a stage of the second order mirrors the first, a class gets the answers that it gets in the first. --/
theorem sameAnswers_of_mirrors {i j : Nat} (hc : p.declarations[i]? = some (.ofClass c))
    (hc' : p'.declarations[j]? = some (.ofClass c')) (hname : c.name = c'.name)
    (hs : (layout target p).settled.Mirrors p' j s) : SameAnswers (settledBefore target p i) s c := by
  have hmem := Program.mem_classes.mpr (List.mem_of_getElem? hc)
  exact (mirrors_settledBefore hq hp.names i).sameAnswers hs (plain c hmem) (h.references i j c c' hc hc' hname)

/-- One declaration of the second order is laid out, and the stage after it mirrors the first order again. --/
theorem mirrors_step {j : Nat} {d : Declaration} (hd : p'.declarations[j]? = some d)
    (hs : (layout target p).settled.Mirrors p' j s) : ∃ next items, layoutDeclaration s d = .ok (next, items) ∧
      (layout target p).settled.Mirrors p' (j + 1) next := by
  cases hclass : d.toClass? with
  | none =>
    -- What is no class settles nothing and has no name that a class refers to.
    have hbefore : ∀ name, p'.DeclaresBefore (j + 1) name ↔ p'.DeclaresBefore j name := fun name => by
      simp [declaresBefore_succ hd, hclass]
    have hmirrors : (layout target p).settled.Mirrors p' (j + 1) s :=
      ⟨hs.target, hs.classes, fun name hname => hs.declared name ((hbefore name).mp hname),
        fun name hname => hs.undeclared name fun hbelow => hname ((hbefore name).mpr hbelow)⟩
    cases d with
    | ofClass => cases hclass
    | _ => exact ⟨s, _, rfl, hmirrors⟩
  | some c' =>
    obtain rfl := Declaration.toClass?_eq_some_iff.mp hclass
    -- A class gets the answers of its counterpart in the first order, so it records the same sizes.
    obtain ⟨i, c, hc, hlines⟩ := h.counterpart hd
    have hname : c.name = c'.name := by rw [← c.lineless_name, hlines, c'.lineless_name]
    obtain ⟨l, hl, -, -⟩ := layout_class hq hc
    have same := sameAnswers_of_mirrors hq hp plain h hc hd hname hs
    obtain ⟨l', hl', -, hsize, htable⟩ :=
      layoutClass_lineless (hp.declarations _ (List.mem_of_getElem? hc)) same hlines hl
    have hrecord := about_record hl'
    refine ⟨s.record l', _, by simp only [layoutDeclaration, hl']; rfl, hs.target, hs.classes, fun name hbefore => ?_,
      fun name hbefore => ?_⟩
    · rw [hrecord]
      split
      · rename_i heq
        rw [heq, ← hname, about_settled hq hp.names hc hl, hsize, htable]
      · rename_i hne
        rcases (declaresBefore_succ hd).mp hbefore with hbefore | ⟨d, hd, rfl⟩
        · exact hs.declared name hbefore
        · cases hd
          exact absurd rfl hne
    · rw [declaresBefore_succ hd, not_or] at hbefore
      rw [hrecord, if_neg fun heq => hbefore.2 ⟨c', rfl, heq.symm⟩]
      exact hs.undeclared name hbefore.1

/-- The second order is laid out up to every place, and its stages mirror the first order. --/
theorem mirrors_run (j : Nat) (hj : j ≤ p'.declarations.length) :
    ∃ s, Trail.reach layoutDeclaration (.initial target) (p'.declarations.take j) = .ok s ∧
      (layout target p).settled.Mirrors p' j s := by
  induction j with
  | zero =>
    refine ⟨.initial target, rfl, settled_target.symm, rfl, fun name hname => ?_, fun _ _ => rfl⟩
    obtain ⟨k, hk, -⟩ := declaresBefore_iff.mp hname
    omega
  | succ j ih =>
    obtain ⟨s, hreach, hs⟩ := ih (by omega)
    have hd : p'.declarations[j]? = some p'.declarations[j] := List.getElem?_eq_getElem (by omega)
    obtain ⟨next, items, hstep, hnext⟩ := mirrors_step hq hp plain h hd hs
    refine ⟨next, ?_, hnext⟩
    rw [List.take_succ_eq_append_getElem (by omega), Trail.reach_append, hreach]
    change Trail.reach layoutDeclaration s [_] = _
    rw [Trail.reach_cons, hstep]
    rfl

theorem layout_reordered : ∃ q', (layout target p').program = .ok q' := by
  obtain ⟨s, hreach, -⟩ := mirrors_run hq hp plain h p'.declarations.length (Nat.le_refl _)
  rw [List.take_length, Trail.reach] at hreach
  split at hreach
  · cases hreach
  · rename_i hfault
    refine ⟨⟨(Trail.feed layoutDeclaration (.initial target) p'.declarations).2.items.map (·.1)⟩, ?_⟩
    simp only [layout, hfault]

theorem mirrors_reordered (j : Nat) (hj : j ≤ p'.declarations.length) :
    (layout target p).settled.Mirrors p' j (settledBefore target p' j) := by
  obtain ⟨s, hreach, hs⟩ := mirrors_run hq hp plain h j hj
  rw [Trail.reach] at hreach
  split at hreach
  · cases hreach
  · cases hreach
    rwa [settledBefore_eq]

theorem about_reordered (name : String) : (layout target p').settled.about name = (layout target p).settled.about name := by
  have hfirst := mirrors_settledBefore hq hp.names p.declarations.length
  have hsecond := mirrors_reordered hq hp plain h p'.declarations.length (Nat.le_refl _)
  rw [settledBefore_length] at hfirst hsecond
  refine hfirst.about_eq hsecond ?_
  rw [declaresBefore_length, declaresBefore_length]
  exact h.declares_iff

end

/-! ### The two layouts -/

/-- A layout has the declarations of its program in their places, and what is no class as it was. --/
structure KeepsOthers (p q : Program) : Prop where
  length : q.declarations.length = p.declarations.length
  others : ∀ (i : Nat) (d : Declaration), p.declarations[i]? = some d → d.toClass? = none → q.declarations[i]? = some d

/-- Two layouts of the same declarations: classes of one name are resolved to the same class, but for its lines if
    they differ, nothing else is changed, and the sizes of all types are the same. --/
structure SameLayouts (target : Target) (p p' q q' : Program) : Prop where
  classes : ∀ (i j : Nat) (c c' : Class), p.declarations[i]? = some (.ofClass c) →
    p'.declarations[j]? = some (.ofClass c') → c.name = c'.name → ∃ r r' : Class, q.declarations[i]? = some (.ofClass r) ∧
      q'.declarations[j]? = some (.ofClass r') ∧ r'.lineless = r.lineless ∧ (c' = c → r' = r)
  first : KeepsOthers p q
  second : KeepsOthers p' q'
  sizes : ∀ type, (layout target p').sizes.sizeOf? type = (layout target p).sizes.sizeOf? type

theorem keepsOthers_of_layout (hq : (layout target p).program = .ok q) : KeepsOthers p q :=
  ⟨length_declarations hq, fun _ _ hd hclass => (layout_other hq hd hclass).1⟩

theorem sameLayouts_of_reordered {q' : Program} (hq : (layout target p).program = .ok q)
    (hq' : (layout target p').program = .ok q') (hp : p.WellBound)
    (plain : ∀ c ∈ p.classes, ∀ name, c.Refers name → Text.strip name = name)
    (h : p.Reordered p') : SameLayouts target p p' q q' where
  classes := fun i j c c' hc hc' hname => by
    obtain ⟨l, hl, hr, -⟩ := layout_class hq hc
    obtain ⟨l', hl', hr', -⟩ := layout_class hq' hc'
    have hmirrors := mirrors_reordered hq hp plain h j (Nat.le_of_lt (List.getElem?_eq_some_iff.mp hc').1)
    have same := sameAnswers_of_mirrors hq hp plain h hc hc' hname hmirrors
    have hbound : c.WellBound := hp.declarations _ (List.mem_of_getElem? hc)
    obtain ⟨l'', hl'', hlines, -⟩ := layoutClass_lineless hbound same (h.lineless_eq hp.names hc hc' hname) hl
    obtain rfl : l'' = l' := Except.ok.inj (hl''.symm.trans hl')
    refine ⟨l.resolved, l''.resolved, hr, hr', hlines, fun heq => ?_⟩
    subst heq
    rw [layoutClass_congr hbound same, hl] at hl'
    cases hl'
    rfl
  first := keepsOthers_of_layout hq
  second := keepsOthers_of_layout hq'
  sizes := fun type => by
    have hclasses : ∀ r : Program, (layout target r).settled.sizes.classes = [] := fun r => by
      rw [← settledBefore_length]
      exact (settledBefore_sizes _).2
    refine sizeOf?_congr (settled_target.trans settled_target.symm) (hclasses p) (hclasses p') ?_
    exact congrArg Prod.fst (about_reordered hq hp plain h _)

end

/-- The layout of a source does not depend on the order of its declarations, as long as the same of the names that a
    class refers to are declared before it: either both orders are laid out or none is, and both layouts are the same. --/
theorem layout_order_independent {strict strict' : Bool} {source source' : String} {file file' : FileNode}
    {p p' : Program} {target : Target} (parsed : parse (lex source).tokens = .ok file)
    (built : (build strict (file.events none)).program = .ok p) (parsed' : parse (lex source').tokens = .ok file')
    (built' : (build strict' (file'.events none)).program = .ok p')
    (reordered : p.Reordered p') :
    ((∃ q, (layout target p).program = .ok q) ↔ ∃ q', (layout target p').program = .ok q') ∧
    ∀ q q', (layout target p).program = .ok q → (layout target p').program = .ok q' →
      SameLayouts target p p' q q' := by
  have hp := wellBound_of_build built
  have hp' := wellBound_of_build built'
  have plain : ∀ c ∈ p.classes, ∀ name, c.Refers name → Text.strip name = name := fun c hc name hname =>
    strip_of_refers parsed built hc hname
  have plain' : ∀ c ∈ p'.classes, ∀ name, c.Refers name → Text.strip name = name := fun c hc name hname =>
    strip_of_refers parsed' built' hc hname
  refine ⟨⟨fun ⟨q, hq⟩ => layout_reordered hq hp plain reordered, fun ⟨q', hq'⟩ => ?_⟩, fun q q' hq hq' =>
    sameLayouts_of_reordered hq hq' hp plain reordered⟩
  exact layout_reordered hq' hp' plain' (reordered.symm hp.names)

/-! The classes of `pairSource` with its bases in the other order. -/

def swappedSource : String :=
  "class B { int y @ 0x0; };\nclass A { virtual int f(); int x @ 0x4; };\nclass C : A, B { virtual int g(); };"

def swappedFile : FileNode :=
  ⟨[.ofClass ⟨"B", [], [.ofVariable (fieldNode "y" "0x0" ⟨1, 11⟩ ⟨1, 19⟩)], ⟨1, 1⟩⟩,
    .ofClass ⟨"A", [],
      [.ofFunction (virtualNode "f" ⟨2, 11⟩ ⟨2, 19⟩), .ofVariable (fieldNode "x" "0x4" ⟨2, 28⟩ ⟨2, 36⟩)], ⟨2, 1⟩⟩,
    .ofClass ⟨"C", ["A", "B"], [.ofFunction (virtualNode "g" ⟨3, 18⟩ ⟨3, 26⟩)], ⟨3, 1⟩⟩], ⟨1, 1⟩⟩

def swappedProgram : Program :=
  ⟨[.ofClass ⟨"B", [], [.ofVariable (declaredField "y" "int" (some 0) 1)], 1⟩,
    .ofClass ⟨"A", [], [.ofFunction (virtualFunction "f" none 2), .ofVariable (declaredField "x" "int" (some 4) 2)], 2⟩,
    .ofClass classOfPair]⟩

theorem parse_swapped : parse (lex swappedSource).tokens = .ok swappedFile := by
  with_unfolding_all rfl

theorem built_swapped : (build true (swappedFile.events none)).program = .ok swappedProgram := by
  with_unfolding_all rfl

theorem reordered_pair : pairProgram.Reordered swappedProgram where
  same := .swap _ _ _
  references := by
    intro i j c c' hc hc' hname name hrefers
    have hmem : name ∈ c.bases ++ c.fields.map (·.type) := by simpa [Class.Refers] using hrefers
    clear hrefers
    match i, j with
    | 0, 1 | 1, 0 | 2, 2 =>
      cases hc
      cases hc'
      revert name
      decide +kernel
    | 0, 0 | 0, 2 | 1, 1 | 1, 2 | 2, 0 | 2, 1 =>
      cases hc
      cases hc'
      exact absurd hname (by decide)
    | i + 3, _ => cases hc
    | _, j + 3 => cases hc'

theorem layout_order_of_pair : parse (lex swappedSource).tokens = .ok swappedFile ∧
    (build true (swappedFile.events none)).program = .ok swappedProgram ∧ pairProgram.Reordered swappedProgram ∧
    ∃ q q', (layout (.ofPointerSize 4) pairProgram).program = .ok q ∧
      (layout (.ofPointerSize 4) swappedProgram).program = .ok q' ∧
      SameLayouts (.ofPointerSize 4) pairProgram swappedProgram q q' := by
  obtain ⟨hiff, hsame⟩ := layout_order_independent parse_pair built_pair parse_swapped built_swapped reordered_pair
  obtain ⟨q', hq'⟩ := hiff.mp ⟨_, laidOut_pair⟩
  exact ⟨parse_swapped, built_swapped, reordered_pair, _, q', laidOut_pair, hq', hsame _ q' laidOut_pair hq'⟩

end Layout
end Overlay
