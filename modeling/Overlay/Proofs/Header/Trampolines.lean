import Overlay.Header.Rendering
import Overlay.Proofs.Build.Spelled
import Overlay.Proofs.Source.Determined
import Overlay.Proofs.Text.Hexadecimal

/-! What the lines of a function that calls its address say about it. Names and types hold none of the characters that
    stand between them, so each can be read off the line that it stands in: the function is known from its lines, but
    for its place in the source. -/

namespace Overlay

/-! ### Texts that end at a separator -/

/-- A character of a type or a name. --/
def isTypePart (c : Char) : Bool := Lexeme.isNamePart c || c == '*'

theorem IsName.typeParts {text : String} (h : IsName text) : ∀ c ∈ text.toList, isTypePart c = true := fun c hc => by
  rw [isTypePart, h.isNamePart c hc, Bool.true_or]

theorem IsTypeText.typeParts {text : String} (h : IsTypeText text) : ∀ c ∈ text.toList, isTypePart c = true := by
  obtain ⟨name, count, hname, rfl⟩ := h
  intro c hc
  rcases mem_withStars hc with hc | rfl
  · exact hname.typeParts c hc
  · rfl

theorem separators : isTypePart ' ' = false ∧ isTypePart '(' = false ∧ isTypePart ')' = false ∧ isTypePart ',' = false := by
  decide +kernel

section
variable {p : Char → Bool} {as bs rest rest' : List Char} {c d : Char}

/-- Two runs of characters with `p`, each before one without, are the same if the texts that they begin are. --/
theorem eq_of_runs (ha : ∀ x ∈ as, p x = true) (hb : ∀ x ∈ bs, p x = true) (hc : p c = false) (hd : p d = false)
    (h : as ++ c :: rest = bs ++ d :: rest') : as = bs ∧ c = d ∧ rest = rest' := by
  have has : (as ++ c :: rest).takeWhile p = as := takeWhile_run ha fun x hx => Option.some.inj hx ▸ hc
  have hbs : (bs ++ d :: rest').takeWhile p = bs := takeWhile_run hb fun x hx => Option.some.inj hx ▸ hd
  rw [h, hbs] at has
  subst has
  exact ⟨rfl, List.cons.inj (List.append_cancel_left h)⟩

end

namespace Header

/-! ### Lists of parameters -/

/-- What stands behind a parameter: what stands behind the list, or a comma and the other parameters. --/
def behindParameter (others : List Parameter) (rest : List Char) : List Char :=
  match others with
  | [] => rest
  | _ :: _ => ',' :: ' ' :: ((parameterList others).toList ++ rest)

theorem parameterList_cons (p : Parameter) (ps : List Parameter) (rest : List Char) :
    (parameterList (p :: ps)).toList ++ rest =
      p.type.toList ++ ' ' :: (p.name.toList ++ behindParameter ps rest) := by
  cases ps <;> simp [parameterList, behindParameter, toString]

theorem behindParameter_separator (others : List Parameter) (rest : List Char) :
    ∃ c more, behindParameter others (')' :: rest) = c :: more ∧ isTypePart c = false := by
  obtain ⟨-, -, hparen, hcomma⟩ := separators
  cases others with
  | nil => exact ⟨_, _, rfl, hparen⟩
  | cons => exact ⟨_, _, rfl, hcomma⟩

theorem eq_of_parameterList {ps qs : List Parameter} {rest rest' : List Char}
    (hps : ∀ p ∈ ps, IsTypeText p.type ∧ IsName p.name) (hqs : ∀ q ∈ qs, IsTypeText q.type ∧ IsName q.name)
    (h : (parameterList ps).toList ++ ')' :: rest = (parameterList qs).toList ++ ')' :: rest') : ps = qs := by
  obtain ⟨hspace, -, hparen, -⟩ := separators
  induction ps generalizing qs with
  | nil =>
    cases qs with
    | nil => rfl
    | cons q qs =>
      rw [parameterList_cons] at h
      obtain ⟨-, hne, -⟩ := eq_of_runs (List.forall_mem_nil _) (hqs q List.mem_cons_self).1.typeParts hparen hspace h
      exact absurd hne (by decide)
  | cons p ps ih =>
    cases qs with
    | nil =>
      rw [parameterList_cons] at h
      obtain ⟨-, hne, -⟩ := eq_of_runs (hps p List.mem_cons_self).1.typeParts (List.forall_mem_nil _) hspace hparen h
      exact absurd hne (by decide)
    | cons q qs =>
      obtain ⟨hptype, hpname⟩ := hps p List.mem_cons_self
      obtain ⟨hqtype, hqname⟩ := hqs q List.mem_cons_self
      rw [parameterList_cons, parameterList_cons] at h
      obtain ⟨htype, -, h⟩ := eq_of_runs hptype.typeParts hqtype.typeParts hspace hspace h
      obtain ⟨c, more, hc, hcsep⟩ := behindParameter_separator ps rest
      obtain ⟨d, more', hd, hdsep⟩ := behindParameter_separator qs rest'
      rw [hc, hd] at h
      obtain ⟨hname, rfl, rfl⟩ := eq_of_runs hpname.typeParts hqname.typeParts hcsep hdsep h
      -- The end of the list and a comma cannot be mistaken for one another.
      have hothers : ps = qs := by
        have hbehind := hc.trans hd.symm
        cases ps with
        | nil =>
          cases qs with
          | nil => rfl
          | cons => cases hbehind
        | cons =>
          cases qs with
          | nil => cases hbehind
          | cons =>
            exact ih (fun x hx => hps x (List.mem_cons_of_mem _ hx)) (fun x hx => hqs x (List.mem_cons_of_mem _ hx))
              (List.cons.inj (List.cons.inj hbehind).2).2
      have hpq : p = q := by
        cases p
        cases q
        rw [Parameter.mk.injEq]
        exact ⟨String.toList_inj.mp hname, String.toList_inj.mp htype⟩
      rw [hpq, hothers]

/-! ### Lines -/

theorem indented_inj {style : Style} {depth : Nat} {s t : String} (h : style.indented depth s = style.indented depth t) :
    s = t := by
  unfold Style.indented at h
  split at h <;> split at h
  · rename_i hs ht
    rw [String.isEmpty_iff.mp hs, String.isEmpty_iff.mp ht]
  · rename_i hs ht
    exact absurd (String.isEmpty_iff.mpr (String.append_eq_empty_iff.mp h.symm).2) ht
  · rename_i hs ht
    exact absurd (String.isEmpty_iff.mpr (String.append_eq_empty_iff.mp h).2) hs
  · simpa using h

/-- The words before a function. --/
def specifier (isStatic : Bool) : String := if isStatic then "static inline" else "inline"

theorem eq_of_specifier {a b : Bool} {rest rest' : List Char}
    (h : (specifier a).toList ++ rest = (specifier b).toList ++ rest') : a = b := by
  cases a <;> cases b <;> simp [specifier] at h ⊢

section
variable {f g : Function} (hf : f.Spelled) (hg : g.Spelled)
include hf hg

/-- The first line tells whether the function is static, and of its name, the type that it returns and its
    parameters. --/
theorem eq_of_signature {a b : Bool}
    (h : s!"{specifier a} {f.returnType} {f.name}({parameterList f.parameters})" =
      s!"{specifier b} {g.returnType} {g.name}({parameterList g.parameters})") :
    a = b ∧ f.returnType = g.returnType ∧ f.name = g.name ∧ f.parameters = g.parameters := by
  obtain ⟨hspace, hparen, -, -⟩ := separators
  have hchars := congrArg String.toList h
  simp only [String.toList_append, toString, List.append_assoc] at hchars
  obtain rfl := eq_of_specifier hchars
  have hchars := List.append_cancel_left (List.append_cancel_left hchars)
  obtain ⟨hreturn, -, hchars⟩ := eq_of_runs hf.returnType.typeParts hg.returnType.typeParts hspace hspace hchars
  obtain ⟨hname, -, hchars⟩ := eq_of_runs hf.name.typeParts hg.name.typeParts hparen hparen hchars
  have hparameters := eq_of_parameterList hf.parameters hg.parameters hchars
  exact ⟨rfl, String.toList_inj.mp hreturn, String.toList_inj.mp hname, hparameters⟩

/-- The line with the type of the pointer tells of the calling convention: its name, or that there is none. --/
theorem eq_of_pointerType (hreturn : f.returnType = g.returnType) {ps qs : List Parameter}
    (h : s!"using Func_t = {pointerType f ps};" = s!"using Func_t = {pointerType g qs};") :
    f.callingConvention = g.callingConvention := by
  have hwords : ∀ word ∈ callingConventions,
      (if word.isEmpty then "" else s!"{word} ").toList.all (· != '*') = true := by decide
  have hstar : ∀ x : Function, x.Spelled →
      ∀ c ∈ (if x.callingConvention.isEmpty then "" else s!"{x.callingConvention} ").toList, (c != '*') = true := by
    intro x hx
    rcases hx.convention with hempty | hword
    · rw [hempty]
      exact nofun
    · exact List.all_eq_true.mp (hwords _ hword)
  have hchars := congrArg String.toList h
  simp only [pointerType, hreturn, String.toList_append, toString, List.append_assoc] at hchars
  have hchars := List.append_cancel_left (List.append_cancel_left (List.append_cancel_left hchars))
  obtain ⟨hconvention, -, -⟩ := eq_of_runs (hstar f hf) (hstar g hg) rfl rfl hchars
  have hconvention := String.toList_inj.mp hconvention
  split at hconvention <;> split at hconvention
  · rename_i hnone hnone'
    rw [String.isEmpty_iff.mp hnone, String.isEmpty_iff.mp hnone']
  · simp [toString] at hconvention
  · simp [toString] at hconvention
  · simpa [toString] using hconvention

end

theorem eq_of_castLine {m n : Nat}
    (h : s!"auto f = reinterpret_cast<Func_t>({Hexadecimal.address m});" =
      s!"auto f = reinterpret_cast<Func_t>({Hexadecimal.address n});") : m = n := by
  have hchars := congrArg String.toList h
  simp only [String.toList_append, toString, List.append_assoc] at hchars
  exact Hexadecimal.address_injective
    (String.toList_inj.mp (List.append_cancel_right (List.append_cancel_left hchars)))

/-- The lines of a function that calls its address, as they are written: outside of classes, or behind the indent of a
    member. --/
def trampolineTexts (style : Style) (isMember : Bool) (f : Function) : List String :=
  (trampoline style (if isMember then 1 else 0) isMember f).items.map (·.text style)

theorem trampolineTexts_bound (style : Style) (isMember : Bool) {f : Function} {address : Nat}
    (h : f.address = some address) : trampolineTexts style isMember f =
      (trampolineLines style (if isMember then 1 else 0) isMember f address).map (·.text style) := by
  rw [trampolineTexts, trampoline, h]
  rfl

end Header

/-- Two functions that are not virtual, both free or both members, of programs that are built from sources: if their
    lines are the same, so are their names, whether they are static, the types that they return, their parameters in
    order, their calling conventions, if any, and their addresses. --/
theorem trampoline_determines (style : Style) {isMember : Bool} {f g : Function} (hf : f.OfSource isMember)
    (hg : g.OfSource isMember) (hfv : f.isVirtual = false) (hgv : g.isVirtual = false)
    (same : Header.trampolineTexts style isMember f = Header.trampolineTexts style isMember g) :
    f.name = g.name ∧ f.isStatic = g.isStatic ∧ f.returnType = g.returnType ∧ f.parameters = g.parameters ∧
      f.callingConvention = g.callingConvention ∧ f.address = g.address := by
  obtain ⟨hfbound, hffree⟩ := hf.bound hfv
  obtain ⟨hgbound, hgfree⟩ := hg.bound hgv
  obtain ⟨m, hm⟩ := Option.isSome_iff_exists.mp hfbound
  obtain ⟨n, hn⟩ := Option.isSome_iff_exists.mp hgbound
  rw [Header.trampolineTexts_bound style isMember hm, Header.trampolineTexts_bound style isMember hn] at same
  obtain ⟨hsignature, same⟩ := List.cons.inj same
  obtain ⟨hpointer, same⟩ := List.cons.inj (List.cons.inj same).2
  obtain ⟨hcast, -⟩ := List.cons.inj same
  obtain ⟨hspecifier, hreturn, hname, hparameters⟩ :=
    Header.eq_of_signature hf.spelled hg.spelled (Header.indented_inj hsignature)
  have hconvention := Header.eq_of_pointerType hf.spelled hg.spelled hreturn (Header.indented_inj hpointer)
  have haddress := Header.eq_of_castLine (Header.indented_inj hcast)
  refine ⟨hname, ?_, hreturn, hparameters, hconvention, by rw [hm, hn, haddress]⟩
  cases isMember with
  | false => rw [hffree rfl, hgfree rfl]
  | true => simpa using hspecifier

/-! A function in two sources, at other places and with its address spelled in another way. -/

def calledSource : String := "int __cdecl run(char* x) @ 0xff;"

def respelledSource : String := "\nint __cdecl run( char *x ) @ 0X0FF;"

def calledFile (line parameter : Int) (address : Address) : FileNode :=
  ⟨[.ofFunction
    { name := "run", returnType := ⟨"int", 0, ⟨line, 1⟩⟩,
      parameters := [⟨"x", ⟨"char", 1, ⟨line, parameter⟩⟩, ⟨line, parameter⟩⟩], modifier := none,
      callingConvention := some "__cdecl", address := some address, position := ⟨line, 1⟩ }], ⟨line, 1⟩⟩

def calledFunction (line : Int) : Function :=
  { Function.opened "run" line with
    returnType := "int", parameters := [⟨"x", "char*"⟩], callingConvention := "__cdecl", address := some 255 }

theorem parse_called : parse (lex calledSource).tokens = .ok (calledFile 1 17 ⟨"0xff", ⟨1, 28⟩⟩) := by
  with_unfolding_all rfl

theorem parse_respelled : parse (lex respelledSource).tokens = .ok (calledFile 2 18 ⟨"0X0FF", ⟨2, 30⟩⟩) := by
  with_unfolding_all rfl

theorem built_called : (build true ((calledFile 1 17 ⟨"0xff", ⟨1, 28⟩⟩).events none)).program =
    .ok ⟨[.ofFunction (calledFunction 1)]⟩ := by
  with_unfolding_all rfl

theorem built_respelled : (build true ((calledFile 2 18 ⟨"0X0FF", ⟨2, 30⟩⟩).events none)).program =
    .ok ⟨[.ofFunction (calledFunction 2)]⟩ := by
  with_unfolding_all rfl

theorem trampoline_determines_respelled :
    (calledFunction 1).OfSource false ∧ (calledFunction 2).OfSource false ∧ (calledFunction 1).isVirtual = false ∧
    (calledFunction 2).isVirtual = false ∧
    Header.trampolineTexts (.ofTarget (.ofPointerSize 4)) false (calledFunction 1) =
      Header.trampolineTexts (.ofTarget (.ofPointerSize 4)) false (calledFunction 2) ∧
    (calledFunction 1).name = (calledFunction 2).name ∧ (calledFunction 1).isStatic = (calledFunction 2).isStatic ∧
    (calledFunction 1).returnType = (calledFunction 2).returnType ∧
    (calledFunction 1).parameters = (calledFunction 2).parameters ∧
    (calledFunction 1).callingConvention = (calledFunction 2).callingConvention ∧
    (calledFunction 1).address = (calledFunction 2).address := by
  have first : (calledFunction 1).OfSource false :=
    .free parse_called built_called (Program.mem_functions.mpr List.mem_cons_self)
  have second : (calledFunction 2).OfSource false :=
    .free parse_respelled built_respelled (Program.mem_functions.mpr List.mem_cons_self)
  exact ⟨first, second, rfl, rfl, rfl,
    trampoline_determines (.ofTarget (.ofPointerSize 4)) first second rfl rfl rfl⟩

end Overlay
