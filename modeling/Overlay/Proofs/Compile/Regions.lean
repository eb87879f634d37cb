import Overlay.Proofs.Compile.RawBlocks
import Overlay.Proofs.Header.Regions

/-! The regions of the classes of a source. Declarations are public, and a layout adds pads that are private. They stand
    directly before a field or a virtual function, which opens the public region again; so where a raw block stands, the
    region is public, and no declared member or raw block is hidden by a pad. --/

namespace Overlay
namespace Layout
open Header (accessAfter regions regions_append)

/-! ### Private pads -/

/-- A member that is private if it is a pad, and public otherwise. --/
def PadsPrivate : Declaration → Prop
  | .ofVariable v => v.isPublic = !v.isPad
  | .ofFunction f => f.isPublic = !f.isPad
  | .ofRawBlock _ => True
  | _ => False

section
variable {sizes : SizeTable}

theorem padsPrivate_variable {v : Variable} (h : v.Declared) : PadsPrivate (.ofVariable v) := by
  simp [PadsPrivate, h.isPublic, h.isPad]

theorem padsPrivate_function {f : Function} (h : f.Declared) : PadsPrivate (.ofFunction f) := by
  simp [PadsPrivate, h.isPublic, h.isPad]

theorem MemberPlace.padsPrivate {cursors next : Cursors} {d : Declaration} {out : List Declaration} (hd : d.MemberBound)
    (place : MemberPlace sizes cursors d out next) : ∀ e ∈ out, PadsPrivate e := by
  cases place with
  | @field v offset _ place =>
    have placed : PadsPrivate (placedField v offset) := padsPrivate_variable (v := v) hd
    cases place with
    | above | adjacent => simpa using placed
    | padded => simpa using ⟨rfl, placed⟩
  | @slot f _ _ _ place =>
    have placed : PadsPrivate (placedSlot f) := padsPrivate_function (f := f) hd.1
    cases place with
    | next | first => simpa using placed
    | padded =>
      refine List.forall_mem_append.mpr ⟨fun e he => ?_, by simpa using placed⟩
      obtain ⟨slot, -, rfl⟩ := List.mem_map.mp he
      rfl
  | function => simpa using padsPrivate_function hd.1
  | rawBlock r => simp [PadsPrivate]

/-! ### Regions of members that are grouped -/

theorem regions_of_pads {d : Declaration} {pads : List Declaration} (padding : ∀ pad ∈ pads, PadFor pad d)
    (hprivate : ∀ pad ∈ pads, PadsPrivate pad) (isOpen : Bool) :
    List.Forall₂ (fun pad region => region = !pad.isPad) pads (regions isOpen pads) := by
  induction pads generalizing isOpen with
  | nil => exact .nil
  | cons pad pads ih =>
    refine .cons ?_ (ih (fun p hp => padding p (List.mem_cons_of_mem _ hp))
      (fun p hp => hprivate p (List.mem_cons_of_mem _ hp)) _)
    have hpad := hprivate pad List.mem_cons_self
    cases padding pad List.mem_cons_self <;> exact hpad

/-- From a public region on, every member is in the public region unless it is a pad, and pads are in the private one. --/
theorem regions_of_grouped {members out : List Declaration} (grouped : Grouped members out)
    (hprivate : ∀ e ∈ out, PadsPrivate e) :
    List.Forall₂ (fun e region => region = !e.isPad) out (regions true out) := by
  induction grouped with
  | nil => exact .nil
  | @cons d e members pads rest padding filled noPad _ ih =>
    obtain ⟨hpads, he, hrest⟩ : (∀ p ∈ pads, PadsPrivate p) ∧ PadsPrivate e ∧ ∀ p ∈ rest, PadsPrivate p := by
      simpa [or_imp, forall_and] using hprivate
    -- The member opens the public region, or it is a raw block and the region is still public.
    have hpublic : accessAfter (pads.foldl accessAfter true) e = true := by
      cases filled with
      | rawBlock r =>
        have hnil : pads = [] := List.eq_nil_iff_forall_not_mem.mpr fun pad hpad => by cases padding pad hpad
        rw [hnil]
        rfl
      | field | slot | function => exact he.trans (by rw [Bool.not_eq_true']; exact noPad)
    rw [regions_append]
    refine List.rel_append (regions_of_pads padding hpads true) (.cons ?_ ?_)
    · rw [hpublic, noPad]
      rfl
    · rw [hpublic]
      exact ih hrest

theorem regions_of_layoutClass {s : Settled} {c : Class} {l : ClassLayout} (hc : c.WellBound)
    (h : layoutClass s c = .ok l) :
    List.Forall₂ (fun e region => region = !e.isPad) l.resolved.members (regions true l.resolved.members) := by
  obtain ⟨members, last, placed, hresolved, -, -⟩ := placed_of_layoutClass hc h
  rw [hresolved]
  exact regions_of_grouped (placed.grouped hc.members)
    (placed.forall_mem fun d hd _ _ _ place => place.padsPrivate (hc.members d hd))

/-- Every class of a program that is laid out has its pads in private regions and all else in public ones. --/
theorem regions_of_layout {target : Target} {p q : Program} (hp : p.WellBound)
    (laidOut : (layout target p).program = .ok q) {r : Class} (hr : .ofClass r ∈ q.declarations) :
    List.Forall₂ (fun e region => region = !e.isPad) r.members (regions true r.members) := by
  obtain ⟨i, hi⟩ := List.getElem?_of_mem hr
  obtain ⟨c, l, hc, hl, rfl⟩ := class_of_layout laidOut hi
  exact regions_of_layoutClass (hp.declarations _ (List.mem_of_getElem? hc)) hl

end
end Layout

/-! ### Headers and sources -/

/-- Every header that is written has each field and each function of a class in the region that it says. And every source
    that compiles has its declared members and raw blocks in public regions, and the pads that its layout adds in private
    ones. The regions are those of the labels among the lines, which are written `public:` and `private:`. --/
theorem members_in_regions :
    (∀ (style : Style) (isPublic : Bool),
      (HeaderLine.access isPublic).text style = if isPublic then "public:" else "private:") ∧
    (∀ (style : Style) (options : HeaderOptions) (sizes : Option SizeTable) (p : Program) (code : String),
      (writeHeader style options sizes p).code = .ok code →
      code = String.intercalate "\n" ((writeHeader style options sizes p).lines.map (·.text style)) ++ "\n" ∧
      Header.InRegions style options sizes p Header.OwnRegion (writeHeader style options sizes p).lines) ∧
    (∀ (s : Settings) (files : Files Id) (source code : String) (output outputFile : Option String)
      (warnings : List String),
      Compilation.outcome (s.compileText files source output) = .ok (.success code outputFile warnings) →
      ∃ file p q lines, parse (lex source).tokens = .ok file ∧ (s.programOf file).program = .ok p ∧
        (s.layoutOf p).program = .ok q ∧ (s.headerOf q (some (s.layoutOf p).sizes)).lines = lines ∧
        code = String.intercalate "\n" (lines.map (·.text s.style)) ++ "\n" ∧
        List.Forall₂ (Layout.LaidOutAs Layout.PaddedClass) p.declarations q.declarations ∧
        Header.InRegions s.style s.options (some (s.layoutOf p).sizes) q (fun d region => region = !d.isPad) lines) := by
  refine ⟨fun _ => HeaderLine.text_access, ?_, ?_⟩
  · intro style options sizes p code written
    obtain ⟨hfault, hlines, htext⟩ := writeHeader_eq_ok written
    rw [hlines]
    exact ⟨htext, Header.inRegions_of_written (Trail.whole_of_fault hfault) fun c _ =>
      Header.ownRegion_regions true c.members⟩
  · intro s files source code output outputFile warnings compiled
    obtain ⟨file, p, q, parsed, built, laidOut, written⟩ := draft_eq_ok (code_of_deliver compiled)
    obtain ⟨hfault, hlines, htext⟩ := writeHeader_eq_ok written
    have hp := wellBound_of_build built
    refine ⟨file, p, q, _, parsed, built, laidOut, hlines, htext, (Layout.grouped_of_layout hp laidOut).imp
      fun _ _ grouped => grouped.imp fun _ _ hclass => hclass.padded, ?_⟩
    exact Header.inRegions_of_written (Trail.whole_of_fault hfault) fun c hc => Layout.regions_of_layout hp laidOut hc

/-! The class with a raw block behind a pad and a field, as its program and from its source. -/

theorem writeHeader_fenced : (writeHeader assertingSettings.style assertingSettings.options
    (some (assertingSettings.layoutOf (fencedProgram [] none)).sizes)
    (fencedProgram [.ofVariable (.pad 0 4)] (some 8))).code = .ok (headerText assertingSettings.style fencedLines) := by
  rw [writeHeader, headerLines_fenced]
  rfl

theorem members_in_regions_fenced :
    HeaderLine.text assertingSettings.style (.access false) = "private:" ∧
    (∃ lines, headerText assertingSettings.style fencedLines =
        String.intercalate "\n" (lines.map (·.text assertingSettings.style)) ++ "\n" ∧
      Header.InRegions assertingSettings.style assertingSettings.options
        (some (assertingSettings.layoutOf (fencedProgram [] none)).sizes)
        (fencedProgram [.ofVariable (.pad 0 4)] (some 8)) Header.OwnRegion lines) ∧
    ∃ file p q lines, parse (lex fencedSource).tokens = .ok file ∧ (assertingSettings.programOf file).program = .ok p ∧
      (assertingSettings.layoutOf p).program = .ok q ∧
      (assertingSettings.headerOf q (some (assertingSettings.layoutOf p).sizes)).lines = lines ∧
      headerText assertingSettings.style fencedLines =
        String.intercalate "\n" (lines.map (·.text assertingSettings.style)) ++ "\n" ∧
      List.Forall₂ (Layout.LaidOutAs Layout.PaddedClass) p.declarations q.declarations ∧
      Header.InRegions assertingSettings.style assertingSettings.options (some (assertingSettings.layoutOf p).sizes) q
        (fun d region => region = !d.isPad) lines :=
  ⟨members_in_regions.1 assertingSettings.style false, ⟨_, members_in_regions.2.1 _ _ _ _ _ writeHeader_fenced⟩,
    members_in_regions.2.2 assertingSettings noFiles _ _ _ _ _ compileText_fenced⟩

end Overlay
