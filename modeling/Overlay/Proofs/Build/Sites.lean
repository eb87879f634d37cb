import Mathlib.Data.List.Nodup
import Overlay.Proofs.Build.Translation

/-! Which trees are programs. A declaration stands at a site: outside of classes or in a class, behind the declarations
    before it. The events of a tree build the program that it stands for if no site offends, and otherwise stop at the
    first site that does. -/

namespace Overlay

/-! ### Views of nodes -/

def Node.toClass? : Node → Option ClassNode
  | .ofClass c => some c
  | _ => none

def Node.toVariable? : Node → Option VariableNode
  | .ofVariable v => some v
  | _ => none

def Node.line : Node → Int
  | .ofFile file => file.position.line
  | .ofClass c => c.position.line
  | .ofFunction f => f.position.line
  | .ofVariable v => v.position.line
  | .ofRawBlock r => r.position.line
  | .ofParameter p => p.position.line
  | .ofAddress a => a.position.line
  | .ofType t => t.position.line

/-! ### Sites -/

/-- A declaration in its place: the class that it is a member of, if it is one, and the nodes before it in the same
    list. The site of a class is its header. --/
structure Site where
  owner : Option ClassNode
  earlier : List Node
  node : Node

namespace Site

/-- Whether a declaration may not stand as it does: a class by the name of an earlier one, a free function without an
    address or with a modifier, a free variable without an address, a member function without an address that is not
    virtual, or the first field of a class without an address. --/
def Offends (site : Site) : Prop :=
  match site.owner, site.node with
  | none, .ofClass c => ∃ d, .ofClass d ∈ site.earlier ∧ d.name = c.name
  | none, .ofFunction f => f.address = none ∨ f.modifier ≠ none
  | some _, .ofFunction f => f.address = none ∧ f.modifier ≠ some "virtual"
  | none, .ofVariable v => v.address = none
  | some _, .ofVariable v => v.address = none ∧ ∀ w, .ofVariable w ∉ site.earlier
  | _, _ => False

/-- What is told of a site that offends: a mistake, or that a binding is missing. --/
def family (site : Site) : Family :=
  match site.owner, site.node with
  | none, .ofClass _ => .semantic
  | none, .ofFunction f => if f.modifier = none then .missingBinding else .semantic
  | _, _ => .missingBinding

/-- The fault that a build finds at a site. --/
def fault? (site : Site) : Option BuildFault :=
  match site.owner, site.node with
  | none, .ofClass c =>
    if (site.earlier.filterMap Node.toClass?).any (·.name == c.name) then
      some (.mistaken (.duplicateClass c.name) c.position.line)
    else none
  | owner, node => node.toMember?.bind (Build.fault? (owner.map (·.upTo site.earlier)))

end Site

/-- The sites of members, in order, behind others. --/
def ClassNode.sitesFrom (c : ClassNode) (earlier : List Node) : List Node → List Site
  | [] => []
  | n :: ns => ⟨some c, earlier, n⟩ :: c.sitesFrom (earlier ++ [n]) ns

/-- The sites within a node. --/
def Node.innerSites : Node → List Site
  | .ofClass c => c.sitesFrom [] c.members
  | _ => []

/-- The sites of declarations and of their members, in order, behind other declarations. --/
def sitesFrom (earlier : List Node) : List Node → List Site
  | [] => []
  | n :: ns => ⟨none, earlier, n⟩ :: (n.innerSites ++ sitesFrom (earlier ++ [n]) ns)

/-- The sites of a file in the order of the source. --/
def FileNode.sites (file : FileNode) : List Site := sitesFrom [] file.declarations

/-! ### Faults at sites -/

theorem toFunction_modifier {f : FunctionNode} (hf : f.WellFormed) :
    (f.toFunction.modifier = .plain ↔ f.modifier = none) ∧ (f.toFunction.isVirtual = true ↔ f.modifier = some "virtual") := by
  unfold FunctionNode.toFunction Function.isVirtual
  cases hmodifier : f.modifier with
  | none => simp
  | some word =>
    rcases List.mem_cons.mp (hf.modifier word hmodifier) with rfl | hword
    · simp [Modifier.ofText?, Modifier.text]
    · obtain rfl := List.mem_singleton.mp hword
      simp [Modifier.ofText?, Modifier.text]

theorem upTo_fields_isEmpty (c : ClassNode) (earlier : List Node) :
    (c.upTo earlier).fields.isEmpty = true ↔ ∀ w, .ofVariable w ∉ earlier := by
  rw [List.isEmpty_iff, ClassNode.upTo, Class.fields, List.filterMap_filterMap, List.filterMap_eq_nil_iff]
  constructor
  · intro h w hw
    cases h _ hw
  · intro h n hn
    cases n with
    | ofVariable w => exact absurd hn (h w)
    | _ => rfl

theorem any_earlier_name {earlier : List Node} {name : String} :
    (earlier.filterMap Node.toClass?).any (·.name == name) = true ↔ ∃ d, .ofClass d ∈ earlier ∧ d.name = name := by
  simp only [List.any_eq_true, List.mem_filterMap, beq_iff_eq]
  constructor
  · rintro ⟨d, ⟨n, hn, hd⟩, hname⟩
    cases n with
    | ofClass d' =>
      cases hd
      exact ⟨d, hn, hname⟩
    | _ => cases hd
  · rintro ⟨d, hd, hname⟩
    exact ⟨d, ⟨_, hd, rfl⟩, hname⟩

/-- What is found where something is wrong, and only there: a fault that tells of it. --/
structure Tells (found : Option BuildFault) (wrong : Prop) (family : Family) (line : Int) : Prop where
  none_iff : found = none ↔ ¬wrong
  told : ∀ fault, found = some fault → ∃ detail, fault.diagnostic? = some ⟨family, detail, some line⟩

theorem Tells.nothing {wrong : Prop} (h : ¬wrong) (family : Family) (line : Int) : Tells none wrong family line :=
  ⟨by simp [h], nofun⟩

theorem Tells.ite {fault : BuildFault} {found : Bool} {wrong : Prop} {family : Family} {detail : String} {line : Int}
    (h : found = true ↔ wrong) (hfault : fault.diagnostic? = some ⟨family, detail, some line⟩) :
    Tells (if found then some fault else none) wrong family line := by
  by_cases hfound : found = true
  · rw [if_pos hfound]
    refine ⟨by simp [h.mp hfound], ?_⟩
    rintro _ ⟨⟩
    exact ⟨detail, hfault⟩
  · rw [if_neg hfound]
    exact .nothing (fun hwrong => hfound (h.mpr hwrong)) family line

section
variable {f : FunctionNode} {v : VariableNode}

theorem toFunction_address : f.toFunction.address.isNone = true ↔ f.address = none := by
  rw [Option.isNone_iff_eq_none]
  exact Option.map_eq_none_iff

theorem toVariable_offset : v.toVariable.offset.isNone = true ↔ v.address = none := by
  rw [Option.isNone_iff_eq_none]
  exact Option.map_eq_none_iff

theorem tells_freeFunction (hf : f.WellFormed) : Tells (Build.functionFault? none f.toFunction)
    (f.address = none ∨ f.modifier ≠ none) (if f.modifier = none then .missingBinding else .semantic)
    f.position.line := by
  have hplain := (toFunction_modifier hf).1
  unfold Build.functionFault?
  by_cases hmodifier : f.modifier = none
  · rw [if_pos hmodifier, if_neg (by simpa using hplain.mpr hmodifier)]
    have haddress : f.toFunction.address.isNone = true ↔ f.address = none ∨ f.modifier ≠ none := by
      rw [toFunction_address, or_iff_left (not_not.mpr hmodifier)]
    exact .ite haddress rfl
  · rw [if_neg hmodifier, if_pos (by simpa using fun h => hmodifier (hplain.mp h))]
    exact ⟨by simp [hmodifier], by rintro _ ⟨⟩; exact ⟨_, rfl⟩⟩

theorem tells_memberFunction (hf : f.WellFormed) (c : Class) : Tells (Build.functionFault? (some c) f.toFunction)
    (f.address = none ∧ f.modifier ≠ some "virtual") .missingBinding f.position.line := by
  have hvirtual := (toFunction_modifier hf).2
  refine .ite ?_ rfl
  rw [Bool.and_eq_true, toFunction_address, Bool.not_eq_true', ← Bool.not_eq_true, hvirtual, and_comm]

theorem tells_freeVariable : Tells (Build.variableFault? none v.toVariable) (v.address = none) .missingBinding
    v.position.line := .ite toVariable_offset rfl

theorem tells_field (c : ClassNode) (earlier : List Node) :
    Tells (Build.variableFault? (some (c.upTo earlier)) v.toVariable)
      (v.address = none ∧ ∀ w, .ofVariable w ∉ earlier) .missingBinding v.position.line := by
  refine .ite ?_ rfl
  rw [Bool.and_eq_true, toVariable_offset, upTo_fields_isEmpty, and_comm]

end

/-- A build finds a fault where a site offends, and the fault tells of it with the line of the declaration. --/
theorem Site.tells {site : Site} (hsite : site.node.WellFormed) :
    Tells site.fault? site.Offends site.family site.node.line := by
  obtain ⟨owner, earlier, n⟩ := site
  cases n with
  | ofClass c =>
    cases owner with
    | none => exact .ite any_earlier_name rfl
    | some owner => exact .nothing id _ _
  | ofFunction f =>
    cases owner with
    | none => exact tells_freeFunction hsite
    | some c => exact tells_memberFunction hsite _
  | ofVariable v =>
    cases owner with
    | none => exact tells_freeVariable
    | some c => exact tells_field c earlier
  | ofRawBlock r => cases owner <;> exact .nothing id _ _
  | _ => exact hsite.elim

/-! ### Builds -/

/-- Where events lead that stop at the first of some sites with a fault. --/
def stopAt (sites : List Site) (last : Build.State) : Except BuildFault Build.State :=
  match sites.findSome? Site.fault? with
  | some fault => .error fault
  | none => .ok last

theorem stopAt_bind (sites : List Site) (last : Build.State) (f : Build.State → Except BuildFault Build.State) :
    stopAt sites last >>= f = stopAt sites last >>= fun _ => f last := by
  unfold stopAt
  cases sites.findSome? Site.fault? <;> rfl

theorem stopAt_append (sites others : List Site) (middle last : Build.State) :
    stopAt (sites ++ others) last = stopAt sites middle >>= fun _ => stopAt others last := by
  unfold stopAt
  rw [List.findSome?_append]
  cases sites.findSome? Site.fault? <;> rfl

namespace Build
variable {strict : Bool}

theorem through_member (c : ClassNode) (closed : List Declaration) (earlier : List Node) {n : Node}
    (hn : n.MemberFormed) :
    through strict ⟨[.ofClass (c.upTo earlier)], none, closed⟩ (Event.ofMember none n) =
      stopAt [⟨some c, earlier, n⟩] ⟨[.ofClass (c.upTo (earlier ++ [n]))], none, closed⟩ := by
  obtain ⟨d, hd, hthrough⟩ := @through_ofMember strict ⟨[.ofClass (c.upTo earlier)], none, closed⟩ rfl rfl n hn
  have hfault : Site.fault? ⟨some c, earlier, n⟩ = fault? (some (c.upTo earlier)) d := by
    cases n with
    | ofFunction | ofVariable | ofRawBlock =>
      cases hd
      rfl
    | _ => exact hn.elim
  have hadd : c.upTo (earlier ++ [n]) = { c.upTo earlier with members := (c.upTo earlier).members ++ [d] } := by
    simp [ClassNode.upTo, hd]
  rw [hthrough, settle, stopAt, List.findSome?_singleton, hfault, hadd]
  rfl

theorem through_members (c : ClassNode) (closed : List Declaration) : ∀ (ns earlier : List Node),
    (∀ n ∈ ns, n.MemberFormed) →
      through strict ⟨[.ofClass (c.upTo earlier)], none, closed⟩ (Trail.concatMap (Event.ofMember none) ns) =
        stopAt (c.sitesFrom earlier ns) ⟨[.ofClass (c.upTo (earlier ++ ns))], none, closed⟩
  | [], earlier, _ => by
    rw [List.append_nil]
    rfl
  | n :: ns, earlier, hns => by
    have hrest := through_members c closed ns (earlier ++ [n]) fun n hn => hns n (List.mem_cons_of_mem _ hn)
    rw [Trail.concatMap, through_append, through_member c closed earlier (hns n List.mem_cons_self), stopAt_bind, hrest]
    rw [← stopAt_append, List.append_assoc]
    rfl

theorem classes_toDeclaration (ns : List Node) : (ns.filterMap Node.toDeclaration?).filterMap Declaration.toClass? =
    (ns.filterMap Node.toClass?).map ClassNode.toClass := by
  rw [List.filterMap_filterMap, List.map_filterMap]
  refine List.filterMap_congr fun n _ => ?_
  cases n <;> rfl

theorem through_header (c : ClassNode) (earlier : List Node) :
    through strict ⟨[], none, earlier.filterMap Node.toDeclaration?⟩
        (.whole [⟨.ofClass, .opening, c.position.line, "", c.name :: c.bases⟩]) =
      stopAt [⟨none, earlier, .ofClass c⟩]
        ⟨[.ofClass (c.upTo [])], none, earlier.filterMap Node.toDeclaration?⟩ := by
  have hnames : (State.classes ⟨[], none, earlier.filterMap Node.toDeclaration?⟩).any (·.name == c.name) =
      (earlier.filterMap Node.toClass?).any (·.name == c.name) := by
    rw [State.classes, classes_toDeclaration, List.any_map]
    rfl
  rw [through_single, stopAt, List.findSome?_singleton]
  simp only [step, openClass, List.isEmpty_nil, hnames, Site.fault?]
  cases (earlier.filterMap Node.toClass?).any (·.name == c.name) <;> rfl

/-- The events of a class lead to its class, unless its header or one of its members offends. --/
theorem through_ofClass {c : ClassNode} (hc : ∀ n ∈ c.members, n.MemberFormed) (earlier : List Node) :
    through strict ⟨[], none, earlier.filterMap Node.toDeclaration?⟩ (Event.ofClass none c) =
      stopAt (⟨none, earlier, .ofClass c⟩ :: c.sitesFrom [] c.members)
        ⟨[], none, (earlier ++ [Node.ofClass c]).filterMap Node.toDeclaration?⟩ := by
  have hclose : through strict ⟨[.ofClass c.toClass], none, earlier.filterMap Node.toDeclaration?⟩
      (.whole [.closes .ofClass c.position.line ""]) =
        .ok ⟨[], none, (earlier ++ [Node.ofClass c]).filterMap Node.toDeclaration?⟩ := by
    rw [List.filterMap_append]
    rfl
  -- The header opens the class, the members fill it, and its end closes it.
  change through strict _ (Trail.whole [_] ++ Trail.concatMap (Event.ofMember none) c.members ++ Trail.whole [_]) = _
  rw [through_append, through_append, through_header, stopAt_bind, through_members c _ c.members [] hc,
    ← stopAt_append, stopAt_bind]
  change (stopAt _ _ >>= fun _ => through strict ⟨[.ofClass c.toClass], none, _⟩ _) = _
  rw [hclose]
  exact (stopAt_append _ [] _ _).symm.trans (by rw [List.append_nil]; rfl)

theorem through_free {n : Node} (hn : n.MemberFormed) (earlier : List Node) :
    through strict ⟨[], none, earlier.filterMap Node.toDeclaration?⟩ (Event.ofDeclaration none n) =
      stopAt (⟨none, earlier, n⟩ :: n.innerSites)
        ⟨[], none, (earlier ++ [n]).filterMap Node.toDeclaration?⟩ := by
  obtain ⟨d, hd, hthrough⟩ :=
    @through_ofMember strict ⟨[], none, earlier.filterMap Node.toDeclaration?⟩ rfl rfl n hn
  have hnode : Event.ofDeclaration none n = Event.ofMember none n ∧ n.innerSites = [] ∧ n.toDeclaration? = some d ∧
      Site.fault? ⟨none, earlier, n⟩ = fault? none d := by
    cases n with
    | ofFunction | ofVariable | ofRawBlock =>
      cases hd
      exact ⟨rfl, rfl, rfl, rfl⟩
    | _ => exact hn.elim
  obtain ⟨hevents, hinner, hdeclaration, hfault⟩ := hnode
  rw [hevents, hinner, hthrough, settle, stopAt, List.findSome?_singleton, hfault, List.filterMap_append,
    List.filterMap_cons, hdeclaration]
  rfl

/-- The events of a declaration lead to the state with what it stands for, unless a site in it offends. --/
theorem through_ofDeclaration {n : Node} (hn : n.WellFormed) (earlier : List Node) :
    through strict ⟨[], none, earlier.filterMap Node.toDeclaration?⟩ (Event.ofDeclaration none n) =
      stopAt (⟨none, earlier, n⟩ :: n.innerSites)
        ⟨[], none, (earlier ++ [n]).filterMap Node.toDeclaration?⟩ := by
  cases n with
  | ofClass c => exact through_ofClass hn earlier
  | _ =>
    refine through_free ?_ earlier
    exact hn

theorem through_declarations : ∀ (ns earlier : List Node), (∀ n ∈ ns, n.WellFormed) →
    through strict ⟨[], none, earlier.filterMap Node.toDeclaration?⟩ (Trail.concatMap (Event.ofDeclaration none) ns) =
      stopAt (sitesFrom earlier ns) ⟨[], none, (earlier ++ ns).filterMap Node.toDeclaration?⟩
  | [], earlier, _ => by
    rw [List.append_nil]
    rfl
  | n :: ns, earlier, hns => by
    have hrest := through_declarations ns (earlier ++ [n]) fun n hn => hns n (List.mem_cons_of_mem _ hn)
    rw [Trail.concatMap, through_append, through_ofDeclaration (hns n List.mem_cons_self), stopAt_bind, hrest]
    rw [← stopAt_append, List.append_assoc]
    rfl

end Build
end Overlay
