import Overlay.Proofs.Build.Renumbered
import Overlay.Proofs.Compile.Outcome
import Overlay.Proofs.Header.Renumbered
import Overlay.Proofs.Layout.Renumbered
import Overlay.Proofs.Source.Spacing

/-! Formatting. Two sources with the same tokens, by kind and text, differ in the places of the tokens only. Every stage
    carries a change of lines and columns along, so both compile to the same header, or both fail in the same stage with
    messages that differ in a place or a line at most. The change that is carried along takes every number to its
    sign: it makes all places of a source the same, and keeps the line zero of pads apart from them. -/

namespace Overlay

/-! ### Failures up to places -/

/-- Messages that differ at most in the place, or in the line, at their end. --/
inductive SameButPlace : String → String → Prop where
  | same (message : String) : SameButPlace message message
  | place (text : String) (p q : Position) : SameButPlace (text ++ " at " ++ p.text) (text ++ " at " ++ q.text)
  | line (text : String) (m n : Int) :
      SameButPlace (text ++ " (line " ++ toString m ++ ")") (text ++ " (line " ++ toString n ++ ")")

/-- The same abort, or as many messages, each the same but for its place. --/
inductive Failure.SameButPlaces : Failure → Failure → Prop where
  | errors {messages others : List String} (same : List.Forall₂ SameButPlace messages others) :
      SameButPlaces (.errors messages) (.errors others)
  | aborted (abort : Abort) : SameButPlaces (.aborted abort) (.aborted abort)

theorem SameButPlace.prefixed {message other : String} (h : SameButPlace message other) (before : String) :
    SameButPlace (before ++ message) (before ++ other) := by
  cases h with
  | same => exact .same _
  | place text p q =>
    simp only [← String.append_assoc]
    exact .place (before ++ text) p q
  | line text m n =>
    simp only [← String.append_assoc]
    exact .line (before ++ text) m n

theorem Failure.sameButPlaces_error {message other : String} (h : SameButPlace message other) :
    SameButPlaces (.errors [message]) (.errors [other]) := .errors (.cons h .nil)

theorem ParseFault.sameButPlaces {f f' : ParseFault} (h : f.renumber Int.sign = f'.renumber Int.sign) :
    (Failure.ofParsing f).SameButPlaces (.ofParsing f') := by
  obtain ⟨cause, token⟩ := f
  obtain ⟨cause', token'⟩ := f'
  simp only [ParseFault.renumber, ParseFault.mk.injEq] at h
  obtain ⟨rfl, htoken⟩ := h
  refine Failure.sameButPlaces_error (.prefixed ?_ _)
  cases token with
  | none =>
    cases token' with
    | none => exact .same _
    | some t => cases htoken
  | some t =>
    cases token' with
    | none => cases htoken
    | some t' => exact .place _ _ _

/-- A line is shown or not as its sign is. --/
theorem Diagnostic.sameButPlaces (family : Family) (detail : String) {m n : Int} (h : m.sign = n.sign) :
    (Failure.errors [(⟨family, detail, some m⟩ : Diagnostic).error]).SameButPlaces
      (.errors [(⟨family, detail, some n⟩ : Diagnostic).error]) := by
  have hzero : m = 0 ↔ n = 0 := by rw [← Int.sign_eq_zero_iff_zero, h, Int.sign_eq_zero_iff_zero]
  have hshown : Diagnostic.showsLine ⟨family, detail, some m⟩ = Diagnostic.showsLine ⟨family, detail, some n⟩ := by
    simp only [Diagnostic.showsLine, bne, beq_eq_decide, hzero]
  refine Failure.sameButPlaces_error (.prefixed ?_ _)
  unfold Diagnostic.text
  dsimp only
  rw [hshown]
  split
  · exact .line detail m n
  · exact .same detail

theorem BuildFault.sameButPlaces {f f' : BuildFault} (h : f.renumber Int.sign = f'.renumber Int.sign) :
    (Failure.ofBuilding f).SameButPlaces (.ofBuilding f') := by
  cases f with
  | inconsistent cause line =>
    cases f' with
    | inconsistent cause' line' =>
      obtain ⟨rfl, hline⟩ := BuildFault.inconsistent.inj h
      exact Diagnostic.sameButPlaces _ _ hline
    | _ => cases h
  | mistaken cause line =>
    cases f' with
    | mistaken cause' line' =>
      obtain ⟨rfl, hline⟩ := BuildFault.mistaken.inj h
      exact Diagnostic.sameButPlaces _ _ hline
    | _ => cases h
  | unbound declaration line =>
    cases f' with
    | unbound declaration' line' =>
      obtain ⟨rfl, hline⟩ := BuildFault.unbound.inj h
      exact Diagnostic.sameButPlaces _ _ hline
    | _ => cases h
  | nesting fault =>
    cases f' <;> cases h
    exact Failure.sameButPlaces_error (.same _)
  | _ =>
    cases f' <;> cases h
    exact .aborted _

theorem LayoutFault.sameButPlaces {f f' : LayoutFault} (h : f.renumber Int.sign = f'.renumber Int.sign) :
    (Failure.ofLayout f).SameButPlaces (.ofLayout f') := by
  cases f with
  | misplaced cause className member line =>
    cases f' with
    | misplaced cause' className' member' line' =>
      obtain ⟨rfl, rfl, rfl, hline⟩ := LayoutFault.misplaced.inj h
      exact Diagnostic.sameButPlaces _ _ hline
    | _ => cases h
  | _ =>
    cases f' <;> cases h
    exact .aborted _

theorem RenderFault.sameButPlaces {f f' : RenderFault} (h : f.renumber Int.sign = f'.renumber Int.sign) :
    (Failure.ofRendering f).SameButPlaces (.ofRendering f') := by
  cases f with
  | unboundField name line =>
    cases f' with
    | unboundField name' line' =>
      obtain ⟨rfl, hline⟩ := RenderFault.unboundField.inj h
      exact Diagnostic.sameButPlaces _ _ hline
    | _ => cases h
  | unboundGlobal name line =>
    cases f' with
    | unboundGlobal name' line' =>
      obtain ⟨rfl, hline⟩ := RenderFault.unboundGlobal.inj h
      exact Diagnostic.sameButPlaces _ _ hline
    | _ => cases h
  | unboundFunction name line =>
    cases f' with
    | unboundFunction name' line' =>
      obtain ⟨rfl, hline⟩ := RenderFault.unboundFunction.inj h
      exact Diagnostic.sameButPlaces _ _ hline
    | _ => cases h
  | unexpectedMember | unexpectedDeclaration =>
    cases f' <;> cases h
    exact Failure.sameButPlaces_error (.same _)
  | _ =>
    cases f' <;> cases h
    exact .aborted _

/-! ### Places of tokens -/

/-- A place as people count: lines and columns from one. --/
structure Position.Counted (p : Position) : Prop where
  line : 0 < p.line
  column : 0 < p.column

theorem Position.Counted.next {p : Position} (h : p.Counted) (c : Char) : (p.next c).Counted := by
  unfold Position.next
  split
  · exact ⟨Int.add_pos h.line Int.one_pos, Int.one_pos⟩
  · exact ⟨h.line, Int.add_pos h.column Int.one_pos⟩

theorem Position.Counted.after {p : Position} (h : p.Counted) (cs : List Char) : (p.after cs).Counted := by
  induction cs generalizing p with
  | nil => exact h
  | cons c cs ih => exact ih (h.next c)

theorem counted_of_mem_piecesAfter {piece : Piece} {cs : List Char} {skip : Nat} {p : Position} (hp : p.Counted)
    (h : piece ∈ piecesAfter skip p cs) : piece.position.Counted := by
  induction cs generalizing skip p with
  | nil => cases skip <;> cases h
  | cons c cs ih =>
    cases skip with
    | zero =>
      rcases List.mem_cons.mp h with rfl | h
      · exact hp
      · exact ih (hp.next c) h
    | succ skip => exact ih (hp.next c) h

theorem counted_of_mem_lex {source : String} {t : Token} (h : t ∈ (lex source).tokens) : t.position.Counted := by
  have hstart : Position.start.Counted := ⟨by decide, by decide⟩
  rcases List.mem_append.mp h with h | h
  · obtain ⟨⟨kind, text, p⟩, hpiece, htoken⟩ := List.mem_filterMap.mp h
    have hp := counted_of_mem_piecesAfter hstart hpiece
    cases kind with
    | token kind =>
      cases htoken
      exact hp
    | _ => cases htoken
  · obtain rfl := List.mem_singleton.mp h
    exact hstart.after _

theorem tokens_renumber {a b : String} (h : (lex a).tokens.map Token.content = (lex b).tokens.map Token.content) :
    (lex a).tokens.map (Token.renumber Int.sign) = (lex b).tokens.map (Token.renumber Int.sign) := by
  have hsign : ∀ source : String, (lex source).tokens.map (Token.renumber Int.sign) =
      ((lex source).tokens.map Token.content).map fun content => ⟨content.1, content.2, .start⟩ := by
    intro source
    rw [List.map_map]
    refine List.map_congr_left fun t ht => ?_
    obtain ⟨hline, hcolumn⟩ := counted_of_mem_lex ht
    simp only [Token.renumber, Position.renumber, Int.sign_eq_one_of_pos hline, Int.sign_eq_one_of_pos hcolumn]
    rfl
  rw [hsign, hsign, h]

/-! ### Stages -/

/-- The stages of a compilation. --/
inductive Stage where
  | lexing
  | parsing
  | building
  | layout
  | rendering

/-- The failure of a source in a stage, after the stages before it. --/
inductive Settings.FailsIn (s : Settings) (source : String) : Stage → Failure → Prop where
  | lexing (faulty : (lex source).faults ≠ []) : FailsIn s source .lexing (.ofLexing (lex source).faults)
  | parsing {fault : ParseFault} (lexed : (lex source).faults = []) (fails : parse (lex source).tokens = .error fault) :
      FailsIn s source .parsing (.ofParsing fault)
  | building {file : FileNode} {fault : BuildFault} (lexed : (lex source).faults = [])
      (parsed : parse (lex source).tokens = .ok file) (fails : (s.programOf file).program = .error fault) :
      FailsIn s source .building (.ofBuilding fault)
  | layout {file : FileNode} {p : Program} {fault : LayoutFault} (lexed : (lex source).faults = [])
      (parsed : parse (lex source).tokens = .ok file) (built : (s.programOf file).program = .ok p)
      (fails : (s.layoutOf p).program = .error fault) : FailsIn s source .layout (.ofLayout fault)
  | rendering {file : FileNode} {p q : Program} {fault : RenderFault} (lexed : (lex source).faults = [])
      (parsed : parse (lex source).tokens = .ok file) (built : (s.programOf file).program = .ok p)
      (laidOut : (s.layoutOf p).program = .ok q)
      (fails : (s.headerOf q (some (s.layoutOf p).sizes)).code = .error fault) :
      FailsIn s source .rendering (.ofRendering fault)

section
variable {s : Settings} {source : String}

theorem Settings.FailsIn.code {stage : Stage} {failure : Failure} (h : s.FailsIn source stage failure) :
    (s.draft source).code = .error failure := by
  cases h with
  | lexing faulty => simp [Settings.draft, faulty]
  | parsing lexed fails => simp [Settings.draft, lexed, fails]
  | building lexed parsed fails =>
    rw [draft_of_parse lexed parsed]
    exact draftEvents_of_build_error fails
  | layout lexed parsed built fails =>
    rw [draft_of_parse lexed parsed]
    exact draftEvents_of_layout_error built fails
  | rendering lexed parsed built laidOut fails =>
    rw [draft_of_layout lexed parsed built laidOut, fails]
    rfl

end

/-! ### Two sources with the same tokens -/

theorem agree_cases {ε α ε' α' : Type} {e : ε → ε'} {r : α → α'} {x y : Except ε α}
    (h : (x.map r).mapError e = (y.map r).mapError e) :
    (∃ a b, x = .ok a ∧ y = .ok b ∧ r a = r b) ∨ ∃ f f', x = .error f ∧ y = .error f' ∧ e f = e f' := by
  cases x with
  | ok a =>
    cases y with
    | ok b => exact Or.inl ⟨a, b, rfl, rfl, Except.ok.inj h⟩
    | error f' => cases h
  | error f =>
    cases y with
    | ok b => cases h
    | error f' => exact Or.inr ⟨f, f', rfl, rfl, Except.error.inj h⟩

section
variable {s : Settings} {a b : String}

theorem parse_agree (h : (lex a).tokens.map Token.content = (lex b).tokens.map Token.content) :
    (∃ file file', parse (lex a).tokens = .ok file ∧ parse (lex b).tokens = .ok file' ∧
      file.renumber Int.sign = file'.renumber Int.sign) ∨
    ∃ fault fault', parse (lex a).tokens = .error fault ∧ parse (lex b).tokens = .error fault' ∧
      fault.renumber Int.sign = fault'.renumber Int.sign := by
  have hne : ∀ source, (lex source).tokens ≠ [] := fun source =>
    List.append_ne_nil_of_right_ne_nil _ (List.cons_ne_nil _ _)
  have hparse := congrArg parse (tokens_renumber h)
  rw [parse_renumber _ (hne a), parse_renumber _ (hne b)] at hparse
  exact agree_cases hparse

theorem programOf_agree {file file' : FileNode} (hfile : file.WellFormed) (hfile' : file'.WellFormed)
    (h : file.renumber Int.sign = file'.renumber Int.sign) :
    (∃ p p', (s.programOf file).program = .ok p ∧ (s.programOf file').program = .ok p' ∧
      p.renumber Int.sign = p'.renumber Int.sign) ∨
    ∃ fault fault', (s.programOf file).program = .error fault ∧ (s.programOf file').program = .error fault' ∧
      fault.renumber Int.sign = fault'.renumber Int.sign := by
  have hbuild := congrArg (fun file : FileNode => (build s.strict (file.events none)).program) h
  rw [build_renumber _ _ hfile, build_renumber _ _ hfile'] at hbuild
  exact agree_cases hbuild

theorem layoutOf_agree {p p' : Program} (h : p.renumber Int.sign = p'.renumber Int.sign) :
    (s.layoutOf p).sizes = (s.layoutOf p').sizes ∧
      ((∃ q q', (s.layoutOf p).program = .ok q ∧ (s.layoutOf p').program = .ok q' ∧
        q.renumber Int.sign = q'.renumber Int.sign) ∨
      ∃ fault fault', (s.layoutOf p).program = .error fault ∧ (s.layoutOf p').program = .error fault' ∧
        fault.renumber Int.sign = fault'.renumber Int.sign) := by
  have hlayout := congrArg (layout s.style.target) h
  rw [layout_renumber Int.sign_zero, layout_renumber Int.sign_zero] at hlayout
  have hsizes := congrArg LaidOut.sizes hlayout
  exact ⟨hsizes, agree_cases (congrArg LaidOut.program hlayout)⟩

theorem headerOf_agree {q q' : Program} (h : q.renumber Int.sign = q'.renumber Int.sign) (sizes : SizeTable) :
    (∃ code, (s.headerOf q (some sizes)).code = .ok code ∧ (s.headerOf q' (some sizes)).code = .ok code) ∨
    ∃ fault fault', (s.headerOf q (some sizes)).code = .error fault ∧ (s.headerOf q' (some sizes)).code = .error fault' ∧
      fault.renumber Int.sign = fault'.renumber Int.sign := by
  have hheader := congrArg (fun p => (writeHeader s.style s.options (some sizes) p).code) h
  rw [writeHeader_renumber, writeHeader_renumber] at hheader
  have hmap : ∀ code : Except RenderFault String, code.map id = code := congrFun Except.map_id
  rw [← hmap (writeHeader s.style s.options (some sizes) q).code,
    ← hmap (writeHeader s.style s.options (some sizes) q').code] at hheader
  rcases agree_cases hheader with ⟨code, code', hcode, hcode', hsame⟩ | hfaults
  · obtain rfl : code = code' := hsame
    exact Or.inl ⟨code, hcode, hcode'⟩
  · exact Or.inr hfaults

/-- Two sources with the same tokens have the same header, or fail alike. --/
theorem drafts_agree (ha : (lex a).faults = []) (hb : (lex b).faults = [])
    (h : (lex a).tokens.map Token.content = (lex b).tokens.map Token.content) :
    (∃ code, (s.draft a).code = .ok code ∧ (s.draft b).code = .ok code) ∨
      ∃ stage failure other, s.FailsIn a stage failure ∧ s.FailsIn b stage other ∧ failure.SameButPlaces other := by
  -- From stage to stage, both go on with results that agree in all but places, or both fail there.
  rcases parse_agree h with ⟨file, file', hfile, hfile', hsame⟩ | ⟨fault, fault', hfault, hfault', hsame⟩
  · rcases programOf_agree (s := s) (wellFormed_of_parse hfile) (wellFormed_of_parse hfile') hsame with
      ⟨p, p', hp, hp', hsame⟩ | ⟨fault, fault', hfault, hfault', hsame⟩
    · obtain ⟨hsizes, hlayout⟩ := layoutOf_agree (s := s) hsame
      rcases hlayout with ⟨q, q', hq, hq', hsame⟩ | ⟨fault, fault', hfault, hfault', hsame⟩
      · rcases headerOf_agree (s := s) hsame (s.layoutOf p).sizes with
          ⟨code, hcode, hcode'⟩ | ⟨fault, fault', hfault, hfault', hsame⟩
        · refine Or.inl ⟨code, ?_, ?_⟩
          · rw [draft_of_layout ha hfile hp hq, hcode]
            rfl
          · rw [draft_of_layout hb hfile' hp' hq', ← hsizes, hcode']
            rfl
        · rw [hsizes] at hfault'
          exact Or.inr ⟨_, _, _, .rendering ha hfile hp hq hfault, .rendering hb hfile' hp' hq' hfault',
            RenderFault.sameButPlaces hsame⟩
      · exact Or.inr ⟨_, _, _, .layout ha hfile hp hfault, .layout hb hfile' hp' hfault', LayoutFault.sameButPlaces hsame⟩
    · exact Or.inr ⟨_, _, _, .building ha hfile hfault, .building hb hfile' hfault', BuildFault.sameButPlaces hsame⟩
  · exact Or.inr ⟨_, _, _, .parsing ha hfault, .parsing hb hfault', ParseFault.sameButPlaces hsame⟩

end

/-! ### Deliveries -/

section
variable {m : Type → Type} [Monad m] {files : Files m} {output : Option String} {d d' : Draft}

theorem outcome_failed (failure : Failure) (warnings : List String) (notices notices' : List Notice) :
    (Compilation.failed failure warnings notices).outcome = (Compilation.failed failure warnings notices').outcome := by
  cases failure <;> rfl

/-- The outcome of a delivery does not depend on what was said before. --/
theorem deliver_outcome_eq [LawfulMonad m] {code : String} (h : d.code = .ok code) (h' : d'.code = .ok code)
    (hwarnings : d.warnings = d'.warnings) : Compilation.outcome <$> Settings.deliver files output d =
      Compilation.outcome <$> Settings.deliver files output d' := by
  unfold Settings.deliver
  simp only [h, h', hwarnings]
  split
  · simp only [map_pure]
  · split
    · simp only [map_pure, outcome_failed _ _ d.notices d'.notices]
    · simp only [map_bind]
      refine congrArg (_ >>= ·) (funext fun written => ?_)
      cases written with
      | ok => simp only [map_pure]
      | error => simp only [map_pure, outcome_failed _ _ d.notices d'.notices]

end

/-- Two sources compile alike: to the same header, and to the same outcome with an output file; or they fail in the same
    stage, with the same messages but for the places in them. --/
inductive Settings.CompilesAlike {m : Type → Type} [Monad m] (s : Settings) (files : Files m) (a b : String) : Prop where
  | succeeds {code : String}
      (first : ∃ notices, s.compileText files a none = pure ⟨.ok (.success code none []), notices⟩)
      (second : ∃ notices, s.compileText files b none = pure ⟨.ok (.success code none []), notices⟩)
      (outcomes : ∀ output, Compilation.outcome <$> s.compileText files a output =
        Compilation.outcome <$> s.compileText files b output)
  | fails {stage : Stage} {failure other : Failure} (first : s.FailsIn a stage failure) (second : s.FailsIn b stage other)
      (same : failure.SameButPlaces other)
      (firstOutcome : ∀ output, ∃ notices, s.compileText files a output = pure (.failed failure [] notices))
      (secondOutcome : ∀ output, ∃ notices, s.compileText files b output = pure (.failed other [] notices))

/-- Two sources without faults that have the same tokens, by kind and text, compile alike. --/
theorem formatting_moves_places {m : Type → Type} [Monad m] [LawfulMonad m] (s : Settings) (files : Files m) {a b : String}
    (ha : (lex a).faults = []) (hb : (lex b).faults = [])
    (h : (lex a).tokens.map Token.content = (lex b).tokens.map Token.content) : s.CompilesAlike files a b := by
  have hwarnings := draft_warnings s
  rcases drafts_agree (s := s) ha hb h with ⟨code, hcode, hcode'⟩ | ⟨stage, failure, other, hfailure, hother, hsame⟩
  · have hok : ∀ source, (s.draft source).code = .ok code → s.compileText files source none =
        pure ⟨.ok (.success code none []), (s.draft source).notices⟩ := fun source hsource => by
      rw [Settings.compileText, deliver_of_ok hsource, hwarnings]
    exact .succeeds ⟨_, hok a hcode⟩ ⟨_, hok b hcode'⟩ fun output =>
      deliver_outcome_eq hcode hcode' (by rw [hwarnings, hwarnings])
  · have herror : ∀ source failure, (s.draft source).code = .error failure → ∀ output,
        s.compileText files source output = pure (.failed failure [] (s.draft source).notices) :=
      fun source failure hsource output => by rw [Settings.compileText, deliver_of_error hsource, hwarnings]
    exact .fails hfailure hother hsame (fun output => ⟨_, herror a failure hfailure.code output⟩) fun output =>
      ⟨_, herror b other hother.code output⟩

theorem formatting_moves_duplicate : (lex "class A { }; class A { };").faults = [] ∧
    (lex "class A{}; // twice\nclass A{};").faults = [] ∧
    (lex "class A { }; class A { };").tokens.map Token.content =
      (lex "class A{}; // twice\nclass A{};").tokens.map Token.content ∧
    wideSettings.CompilesAlike noFiles "class A { }; class A { };" "class A{}; // twice\nclass A{};" := by
  have ha : (lex "class A { }; class A { };").faults = [] := by decide +kernel
  have hb : (lex "class A{}; // twice\nclass A{};").faults = [] := by decide +kernel
  have h : (lex "class A { }; class A { };").tokens.map Token.content =
      (lex "class A{}; // twice\nclass A{};").tokens.map Token.content := by decide +kernel
  exact ⟨ha, hb, h, formatting_moves_places wideSettings noFiles ha hb h⟩

end Overlay
