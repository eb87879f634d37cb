import Mathlib.Data.List.Permutation
import Overlay.Proofs.Build.Sites

/-! Builds of trees. A tree builds if its class names are distinct and its declarations have the addresses that they
    need; what is built is then the program that the tree stands for, and otherwise the build stops at the first
    declaration in the source that offends. -/

namespace Overlay

/-- A file with class names that are all distinct, and with the addresses that its declarations need. --/
structure FileNode.Complete (file : FileNode) : Prop where
  names : ((file.declarations.filterMap Node.toClass?).map (·.name)).Nodup
  freeFunctions : ∀ f, .ofFunction f ∈ file.declarations → f.address ≠ none ∧ f.modifier = none
  freeVariables : ∀ v, .ofVariable v ∈ file.declarations → v.address ≠ none
  memberFunctions : ∀ c, .ofClass c ∈ file.declarations → ∀ f, .ofFunction f ∈ c.members →
    f.modifier ≠ some "virtual" → f.address ≠ none
  firstFields : ∀ c, .ofClass c ∈ file.declarations → ∀ v, (c.members.filterMap Node.toVariable?).head? = some v →
    v.address ≠ none

/-- Every node of a file, and every member of its classes, stands for a declaration. --/
structure FileNode.Translatable (file : FileNode) : Prop where
  declarations : ∀ n ∈ file.declarations, n.toDeclaration?.isSome
  members : ∀ c, .ofClass c ∈ file.declarations → ∀ n ∈ c.members, n.toMember?.isSome

theorem Node.MemberFormed.isSome {n : Node} (h : n.MemberFormed) : n.toMember?.isSome := by
  cases n with
  | ofFunction | ofVariable | ofRawBlock => rfl
  | _ => exact h.elim

theorem FileNode.WellFormed.translatable {file : FileNode} (h : file.WellFormed) : file.Translatable where
  declarations := fun n hn => by
    have hformed := h n hn
    cases n with
    | ofClass | ofFunction | ofVariable | ofRawBlock => rfl
    | _ => exact hformed.elim
  members := fun c hc n hn => Node.MemberFormed.isSome (h _ hc n hn)

/-! ### Sites by what is before them -/

theorem mem_classSites {c : ClassNode} {site : Site} : ∀ {ns earlier : List Node}, site ∈ c.sitesFrom earlier ns ↔
    ∃ before n after, ns = before ++ n :: after ∧ site = ⟨some c, earlier ++ before, n⟩
  | [], _ => by simp [ClassNode.sitesFrom]
  | n :: ns, earlier => by
    rw [ClassNode.sitesFrom, List.mem_cons, mem_classSites]
    constructor
    · rintro (rfl | ⟨before, m, after, rfl, rfl⟩)
      · exact ⟨[], n, ns, rfl, by rw [List.append_nil]⟩
      · exact ⟨n :: before, m, after, rfl, by rw [List.append_assoc]; rfl⟩
    · rintro ⟨before, m, after, hns, rfl⟩
      cases before with
      | nil =>
        cases hns
        exact Or.inl (by rw [List.append_nil])
      | cons b before =>
        cases hns
        exact Or.inr ⟨before, m, after, rfl, by rw [List.append_assoc]; rfl⟩

theorem mem_sitesFrom {site : Site} : ∀ {ns earlier : List Node}, site ∈ sitesFrom earlier ns ↔
    ∃ before n after, ns = before ++ n :: after ∧ (site = ⟨none, earlier ++ before, n⟩ ∨ site ∈ n.innerSites)
  | [], _ => by simp [sitesFrom]
  | n :: ns, earlier => by
    rw [sitesFrom, List.mem_cons, List.mem_append, mem_sitesFrom]
    constructor
    · rintro (rfl | hinner | ⟨before, m, after, rfl, hsite⟩)
      · exact ⟨[], n, ns, rfl, Or.inl (by rw [List.append_nil])⟩
      · exact ⟨[], n, ns, rfl, Or.inr hinner⟩
      · refine ⟨n :: before, m, after, rfl, hsite.imp_left fun h => ?_⟩
        rw [h, List.append_assoc]
        rfl
    · rintro ⟨before, m, after, hns, hsite⟩
      cases before with
      | nil =>
        cases hns
        rw [List.append_nil] at hsite
        exact hsite.imp_right Or.inl
      | cons b before =>
        cases hns
        refine Or.inr (Or.inr ⟨before, m, after, rfl, hsite.imp_left fun h => ?_⟩)
        rw [h, List.append_assoc]
        rfl

/-! ### Complete files -/

section
variable {file : FileNode}

theorem toClass?_eq_some_iff {n : Node} {c : ClassNode} : n.toClass? = some c ↔ n = .ofClass c := by
  cases n <;> simp [Node.toClass?]

theorem toVariable?_eq_some_iff {n : Node} {v : VariableNode} : n.toVariable? = some v ↔ n = .ofVariable v := by
  cases n <;> simp [Node.toVariable?]

/-- Class names are distinct if none is that of an earlier class. --/
theorem nodup_names {ns : List Node} (h : ∀ before c after, ns = before ++ .ofClass c :: after →
    ∀ d, .ofClass d ∈ before → d.name ≠ c.name) : ((ns.filterMap Node.toClass?).map (·.name)).Nodup := by
  -- Two nodes with the earlier one in front split the list at the later one.
  have hpairs : ns.Pairwise fun a b => ∀ d, a.toClass? = some d → ∀ c, b.toClass? = some c → d.name ≠ c.name := by
    rw [List.pairwise_iff_getElem]
    intro i j hi hj hij d hd c hc
    rw [toClass?_eq_some_iff] at hd hc
    refine h (ns.take j) c (ns.drop (j + 1)) ?_ d ?_
    · rw [← hc, ← List.drop_eq_getElem_cons hj, List.take_append_drop]
    · rw [← hd]
      exact List.mem_take_iff_getElem.mpr ⟨i, by omega, rfl⟩
  exact List.pairwise_map.mpr (List.pairwise_filterMap.mpr hpairs)

theorem FileNode.Complete.not_offends (h : file.Complete) {site : Site} (hsite : site ∈ file.sites) : ¬site.Offends := by
  obtain ⟨before, n, after, hns, hsite⟩ := mem_sitesFrom.mp hsite
  have hn : n ∈ file.declarations := hns ▸ List.mem_append_right _ List.mem_cons_self
  rcases hsite with rfl | hinner
  · cases n with
    | ofClass c =>
      rintro ⟨d, hd, hname⟩
      have hnames := h.names
      rw [hns, List.filterMap_append, List.map_append] at hnames
      refine (List.nodup_append.mp hnames).2.2 d.name ?_ c.name ?_ hname
      · exact List.mem_map_of_mem (List.mem_filterMap.mpr ⟨_, hd, rfl⟩)
      · exact List.mem_map_of_mem (List.mem_filterMap.mpr ⟨.ofClass c, List.mem_cons_self, rfl⟩)
    | ofFunction f =>
      obtain ⟨haddress, hmodifier⟩ := h.freeFunctions f hn
      rintro (hmissing | hmodified)
      · exact haddress hmissing
      · exact hmodified hmodifier
    | ofVariable v => exact h.freeVariables v hn
    | _ => exact id
  · cases n with
    | ofClass c =>
      obtain ⟨earlier, m, later, hmembers, rfl⟩ := mem_classSites.mp hinner
      have hm : m ∈ c.members := hmembers ▸ List.mem_append_right _ List.mem_cons_self
      cases m with
      | ofFunction f => exact fun ⟨hmissing, hvirtual⟩ => h.memberFunctions c hn f hm hvirtual hmissing
      | ofVariable v =>
        rintro ⟨hmissing, hfirst⟩
        refine h.firstFields c hn v ?_ hmissing
        have hnone : earlier.filterMap Node.toVariable? = [] :=
          List.filterMap_eq_nil_iff.mpr fun n hn => Option.eq_none_iff_forall_not_mem.mpr fun w hw =>
            hfirst w (toVariable?_eq_some_iff.mp hw ▸ hn)
        rw [hmembers, List.filterMap_append, hnone]
        rfl
      | _ => exact id
    | _ => cases hinner

theorem complete_of_not_offends (h : ∀ site ∈ file.sites, ¬site.Offends) : file.Complete := by
  have hfree : ∀ n ∈ file.declarations, ∃ before, ¬Site.Offends ⟨none, before, n⟩ := by
    intro n hn
    obtain ⟨before, after, hns⟩ := List.mem_iff_append.mp hn
    exact ⟨before, h _ (mem_sitesFrom.mpr ⟨before, n, after, hns, Or.inl rfl⟩)⟩
  have hmember : ∀ c, .ofClass c ∈ file.declarations → ∀ before n after, c.members = before ++ n :: after →
      ¬Site.Offends ⟨some c, before, n⟩ := by
    intro c hc before n after hmembers
    obtain ⟨outer, behind, hns⟩ := List.mem_iff_append.mp hc
    refine h _ (mem_sitesFrom.mpr ⟨outer, _, behind, hns, Or.inr ?_⟩)
    exact mem_classSites.mpr ⟨before, n, after, hmembers, rfl⟩
  refine ⟨nodup_names fun before c after hns d hd hname => ?_, fun f hf => ?_, fun v hv => ?_,
    fun c hc f hf hvirtual hmissing => ?_, fun c hc v hv hmissing => ?_⟩
  · exact h _ (mem_sitesFrom.mpr ⟨before, _, after, hns, Or.inl rfl⟩) ⟨d, hd, hname⟩
  · obtain ⟨before, hbefore⟩ := hfree _ hf
    exact ⟨fun hmissing => hbefore (Or.inl hmissing), not_not.mp fun hmodified => hbefore (Or.inr hmodified)⟩
  · obtain ⟨before, hbefore⟩ := hfree _ hv
    exact hbefore
  · obtain ⟨before, after, hmembers⟩ := List.mem_iff_append.mp hf
    exact hmember c hc before _ after hmembers ⟨hmissing, hvirtual⟩
  · obtain ⟨others, hothers⟩ := List.head?_eq_some_iff.mp hv
    obtain ⟨before, n, after, hmembers, hbefore, hn, -⟩ := List.filterMap_eq_cons_iff.mp hothers
    obtain rfl := toVariable?_eq_some_iff.mp hn
    refine hmember c hc before _ after hmembers ⟨hmissing, fun w hw => ?_⟩
    cases hbefore _ hw

theorem complete_iff : file.Complete ↔ ∀ site ∈ file.sites, ¬site.Offends :=
  ⟨fun h _ hsite => h.not_offends hsite, complete_of_not_offends⟩

/-! ### Builds -/

theorem wellFormed_sites (h : file.WellFormed) : ∀ site ∈ file.sites, site.node.WellFormed := by
  intro site hsite
  obtain ⟨before, n, after, hns, hsite⟩ := mem_sitesFrom.mp hsite
  have hn : n.WellFormed := h n (hns ▸ List.mem_append_right _ List.mem_cons_self)
  rcases hsite with rfl | hinner
  · exact hn
  · cases n with
    | ofClass c =>
      obtain ⟨earlier, m, later, hmembers, rfl⟩ := mem_classSites.mp hinner
      exact (hn m (hmembers ▸ List.mem_append_right _ List.mem_cons_self)).wellFormed
    | _ => cases hinner

/-- The build of a file stops at the first site with a fault, and otherwise returns the program of the file. --/
theorem build_program (strict : Bool) (h : file.WellFormed) : (build strict (file.events none)).program =
    match file.sites.findSome? Site.fault? with
    | some fault => .error fault
    | none => .ok file.program := by
  have hthrough := @Build.through_declarations strict file.declarations [] h
  rw [Build.build_program_eq]
  change Build.through strict ⟨[], none, [].filterMap Node.toDeclaration?⟩ _ >>= _ = _
  rw [FileNode.events, hthrough, stopAt, FileNode.sites]
  cases (sitesFrom [] file.declarations).findSome? Site.fault? <;> rfl

end

/-- The events of the tree of a source build if and only if the tree is complete. What they build is the program that
    the tree stands for; and if they do not, the fault tells of the first site in the source that offends. --/
theorem build_faithful (strict : Bool) {source : String} {file : FileNode}
    (parsed : parse (lex source).tokens = .ok file) : file.WellFormed ∧ file.Translatable ∧
      ((∃ p, (build strict (file.events none)).program = .ok p) ↔ file.Complete) ∧
      (∀ p, (build strict (file.events none)).program = .ok p → p = file.program) ∧
      ∀ fault, (build strict (file.events none)).program = .error fault → ∃ before site after,
        file.sites = before ++ site :: after ∧ (∀ s ∈ before, ¬s.Offends) ∧ site.Offends ∧
          ∃ detail, fault.diagnostic? = some ⟨site.family, detail, some site.node.line⟩ := by
  have hformed := wellFormed_of_parse parsed
  have htells : ∀ site ∈ file.sites, Tells site.fault? site.Offends site.family site.node.line :=
    fun site hsite => Site.tells (wellFormed_sites hformed site hsite)
  have hcomplete : file.sites.findSome? Site.fault? = none ↔ file.Complete := by
    rw [complete_iff, List.findSome?_eq_none_iff]
    exact forall₂_congr fun site hsite => (htells site hsite).none_iff
  rw [build_program strict hformed]
  refine ⟨hformed, hformed.translatable, ?_, ?_, ?_⟩
  · rw [← hcomplete]
    cases file.sites.findSome? Site.fault? with
    | none => exact ⟨fun _ => rfl, fun _ => ⟨_, rfl⟩⟩
    | some fault => exact ⟨fun ⟨_, hp⟩ => (nomatch hp), nofun⟩
  · intro p hp
    split at hp
    · cases hp
    · exact (Except.ok.inj hp).symm
  · intro fault hfault
    split at hfault
    · rename_i found hfound
      cases hfault
      obtain ⟨before, site, after, hsites, hsite, hbefore⟩ := List.findSome?_eq_some_iff.mp hfound
      have htell : ∀ s ∈ before ++ site :: after, Tells s.fault? s.Offends s.family s.node.line := hsites ▸ htells
      have hthis := htell site (List.mem_append_right _ List.mem_cons_self)
      refine ⟨before, site, after, hsites, fun s hs => ?_, ?_, hthis.told fault hsite⟩
      · exact (htell s (List.mem_append_left _ hs)).none_iff.mp (hbefore s hs)
      · by_contra hgood
        rw [hthis.none_iff.mpr hgood] at hsite
        cases hsite
    · cases hfault

/-! A class with one field, and a function. -/

def sampleSource : String := "class A { char* x @ 0x10; }; int run() @ 0xff;"

def sampleClass : ClassNode :=
  ⟨"A", [], [.ofVariable ⟨"x", ⟨"char", 1, ⟨1, 11⟩⟩, some ⟨"0x10", ⟨1, 21⟩⟩, ⟨1, 11⟩⟩], ⟨1, 1⟩⟩

def sampleFunction : FunctionNode :=
  { name := "run", returnType := ⟨"int", 0, ⟨1, 30⟩⟩, parameters := [], modifier := none, callingConvention := none,
    address := some ⟨"0xff", ⟨1, 42⟩⟩, position := ⟨1, 30⟩ }

def sampleFile : FileNode := ⟨[.ofClass sampleClass, .ofFunction sampleFunction], ⟨1, 1⟩⟩

theorem parse_sample : parse (lex sampleSource).tokens = .ok sampleFile := by
  with_unfolding_all rfl

theorem build_faithful_sample : parse (lex sampleSource).tokens = .ok sampleFile ∧
    (build true (sampleFile.events none)).program = .ok sampleFile.program := by
  obtain ⟨-, -, hbuilds, hprogram, -⟩ := build_faithful true parse_sample
  have hcomplete : sampleFile.Complete := by
    refine complete_of_not_offends fun site hsite => ?_
    simp only [sampleFile, FileNode.sites, sitesFrom, Node.innerSites, sampleClass, ClassNode.sitesFrom, List.nil_append,
      List.cons_append, List.mem_cons, List.not_mem_nil, or_false] at hsite
    rcases hsite with rfl | rfl | rfl <;> simp [Site.Offends, sampleFunction]
  obtain ⟨p, hp⟩ := hbuilds.mpr hcomplete
  exact ⟨parse_sample, hp.trans (congrArg Except.ok (hprogram p hp))⟩

end Overlay
