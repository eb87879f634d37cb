import Overlay.Header.Header
import Overlay.Proofs.Feed
import Overlay.Proofs.Program.Renumbered

/-! Headers of renumbered programs. No line of a header gives the line of a declaration, so a renumbered program has the
    same header with the same sizes, or a renumbered fault. -/

namespace Overlay

def RenderFault.renumber (g : Int → Int) : RenderFault → RenderFault
  | .unboundField name line => .unboundField name (g line)
  | .unboundGlobal name line => .unboundGlobal name (g line)
  | .unboundFunction name line => .unboundFunction name (g line)
  | fault => fault

namespace Header
variable {g : Int → Int} {style : Style}

theorem trampoline_renumber (depth : Nat) (isMember : Bool) (f : Function) :
    trampoline style depth isMember (f.renumber g) =
      (trampoline style depth isMember f).change (RenderFault.renumber g) id := by
  obtain ⟨name, returnType, modifier, parameters, convention, address, isPad, isPublic, line⟩ := f
  cases address with
  | none => rfl
  | some address => exact congrArg (Trail.mk · none) (List.map_id _).symm

theorem field_renumber (v : Variable) :
    field style (v.renumber g) = (field style v).change (RenderFault.renumber g) id := by
  obtain ⟨name, type, offset, length, isPad, isPublic, line⟩ := v
  have hdeclarator : ∀ line' : Int, Variable.declarator? style.digitLimit
      ⟨name, type, offset, length, isPad, isPublic, line'⟩ =
        Variable.declarator? style.digitLimit ⟨name, type, offset, length, isPad, isPublic, line⟩ := fun _ => rfl
  unfold field Variable.renumber
  dsimp only
  rw [hdeclarator]
  split <;> rfl

theorem global_renumber (v : Variable) : global (v.renumber g) = (global v).change (RenderFault.renumber g) id := by
  obtain ⟨name, type, offset, length, isPad, isPublic, line⟩ := v
  cases offset <;> rfl

theorem member_renumber (className : String) (d : Declaration) :
    member style className (d.renumber g) = (member style className d).change (RenderFault.renumber g) id := by
  cases d with
  | ofFunction f =>
    change (if f.isVirtual then _ else trampoline style 1 true (f.renumber g)) = _
    rw [trampoline_renumber, member]
    split <;> rfl
  | ofVariable v => exact field_renumber v
  | _ => rfl

theorem whole_renumber (lines : List HeaderLine) :
    (Trail.whole lines : Rendering).change (RenderFault.renumber g) id = Trail.whole lines :=
  congrArg (Trail.mk · none) (List.map_id lines)

theorem members_renumber (className : String) : ∀ (isOpen : Bool) (ds : List Declaration),
    members style className isOpen (ds.map (Declaration.renumber g)) =
      (members style className isOpen ds).change (RenderFault.renumber g) id
  | _, [] => rfl
  | isOpen, d :: ds => by
    have haccess : accessAfter isOpen (d.renumber g) = accessAfter isOpen d := by cases d <;> rfl
    rw [List.map_cons, members, members, haccess, member_renumber, members_renumber className, Trail.change_append,
      Trail.change_append, whole_renumber]

theorem classLines_renumber (size : Option Int) (c : Class) :
    classLines style size (c.renumber g) = (classLines style size c).change (RenderFault.renumber g) id := by
  have hopening : classOpening style (c.renumber g) = classOpening style c := by
    rw [classOpening, classHead, Class.renumber_name, Class.renumber_bases]
    rfl
  have hclosing : classClosing style size (c.renumber g) = classClosing style size c := by
    rw [classClosing, Class.renumber_name]
    rfl
  rw [classLines, classLines, hopening, hclosing, Class.renumber_name, Class.renumber_members, members_renumber,
    Trail.change_append, Trail.change_append, whole_renumber, whole_renumber]

theorem declaration_renumber (sizeOf? : String → Option Int) (d : Declaration) :
    declaration style sizeOf? (d.renumber g) = (declaration style sizeOf? d).change (RenderFault.renumber g) id := by
  cases d with
  | ofClass c =>
    change classLines style (sizeOf? (c.renumber g).name) (c.renumber g) = _
    rw [classLines_renumber, Class.renumber_name]
    rfl
  | ofFunction f => exact trampoline_renumber 0 false f
  | ofVariable v => exact global_renumber v
  | _ => rfl

/-- The opening lines have no line of a declaration to renumber. --/
theorem opening_renumber (includes : List Include) (classNames : List String) :
    (opening style includes classNames).change (RenderFault.renumber g) id = opening style includes classNames := by
  have hincludes : Trail.concatMap includeLine includes =
      (Trail.concatMap includeLine includes).change (RenderFault.renumber g) id := by
    have hinclude : ∀ i, includeLine i = (includeLine i).change (RenderFault.renumber g) id := fun i => by cases i <;> rfl
    simpa using Trail.concatMap_change (b := id) hinclude includes
  rw [opening, Trail.change_append, Trail.change_append, ← hincludes, whole_renumber, whole_renumber]

end Header

theorem headerLines_renumber (g : Int → Int) (style : Style) (options : HeaderOptions) (sizes : SizeTable) (p : Program) :
    headerLines style options (some sizes) (p.renumber g) =
      (headerLines style options (some sizes) p).change (RenderFault.renumber g) id := by
  have hnames : (p.renumber g).classes.map (·.name) = p.classes.map (·.name) := by
    rw [Program.classes_renumber, List.map_map]
    exact congrArg (List.map · p.classes) (funext (Class.renumber_name g))
  rw [headerLines, headerLines, hnames, Trail.change_append, Header.opening_renumber, Program.renumber,
    ← Trail.concatMap_change (Header.declaration_renumber _) p.declarations]
  rfl

/-- The header of a renumbered program, with given sizes, is the same header. --/
theorem writeHeader_renumber (g : Int → Int) (style : Style) (options : HeaderOptions) (sizes : SizeTable) (p : Program) :
    (writeHeader style options (some sizes) (p.renumber g)).code =
      (writeHeader style options (some sizes) p).code.mapError (RenderFault.renumber g) := by
  unfold writeHeader
  rw [headerLines_renumber]
  obtain ⟨lines, fault⟩ := headerLines style options (some sizes) p
  cases fault with
  | some fault => rfl
  | none =>
    dsimp only [Trail.change, Option.map_none]
    rw [List.map_id]
    rfl

end Overlay
