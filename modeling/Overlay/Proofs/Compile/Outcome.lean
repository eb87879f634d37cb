import Overlay.Compile.Compilation
import Overlay.Proofs.Build.Faithful
import Overlay.Proofs.Build.Warnings
import Overlay.Proofs.Header.Renders
import Overlay.Proofs.Layout.Faults

/-! What compiling a source comes to. Whatever the source, it is a header or a list of errors, without a warning and
    without an internal error: what the lexer and the parser accept has only mistakes and missing bindings in the build
    and misplaced members in the layout, and what is laid out has a header. -/

namespace Overlay

/-- How errors begin that no source may lead to. --/
def internalError : String := "internal compiler error"

/-- A result of compiling without an output file: a header, or errors none of which is internal; and no warnings. --/
def Outcome.Reports : Outcome → Prop
  | .success _ outputFile warnings => outputFile = none ∧ warnings = []
  | .failure errors warnings => errors ≠ [] ∧ warnings = [] ∧ ∀ e ∈ errors, e.startsWith internalError = false

/-- Settings without a limit for the digits of a number. --/
def Settings.unlimited (s : Settings) : Settings := { s with style := { s.style with digitLimit := none } }

/-! ### Settings -/

theorem settings_eq_ok {strict : Bool} {options : HeaderOptions} {pointerSize : Option Int} {environment : Option String}
    {s : Settings} (h : Settings.new strict options pointerSize environment = .ok s) :
    ∃ word, 0 < word ∧ s = ⟨strict, .ofTarget (.ofPointerSize word), options⟩ := by
  unfold Settings.new at h
  split at h
  · cases h
  · split at h
    · rename_i hpositive
      cases h
      exact ⟨_, hpositive, rfl⟩
    · cases h

/-! ### Errors -/

/-- A failure with errors none of which is internal. --/
def Failure.Plain (failure : Failure) : Prop :=
  ∃ errors, failure = .errors errors ∧ errors ≠ [] ∧ ∀ e ∈ errors, e.startsWith internalError = false

/-- An error that begins with the name of a stage is not internal. --/
theorem startsWith_stage {stage : String} {c : Char} (hstage : stage.toList.head? = some c) (hc : c ≠ 'i')
    (text : String) : (stage ++ text).startsWith internalError = false := by
  rw [String.startsWith_string_eq_false_iff, String.toList_append]
  rintro ⟨rest, hrest⟩
  obtain ⟨cs, hcs⟩ := List.head?_eq_some_iff.mp hstage
  rw [hcs] at hrest
  exact hc (List.head_eq_of_cons_eq hrest).symm

theorem plain_singleton {stage : String} {c : Char} (hstage : stage.toList.head? = some c) (hc : c ≠ 'i')
    (text : String) : (Failure.errors [stage ++ text]).Plain := by
  refine ⟨_, rfl, List.cons_ne_nil _ _, fun e he => ?_⟩
  obtain rfl := List.mem_singleton.mp he
  exact startsWith_stage hstage hc text

theorem plain_lexing {faults : List LexFault} (h : faults ≠ []) : (Failure.ofLexing faults).Plain := by
  refine ⟨_, rfl, by simpa using h, fun e he => ?_⟩
  obtain ⟨fault, -, rfl⟩ := List.mem_map.mp he
  exact startsWith_stage (c := 'L') rfl (by decide) _

theorem plain_parsing (fault : ParseFault) : (Failure.ofParsing fault).Plain :=
  plain_singleton (c := 'S') rfl (by decide) _

theorem Diagnostic.error_internal {d : Diagnostic} (h : d.family = .internal) :
    d.error = internalError ++ (": " ++ d.text) := by
  rw [← String.append_assoc]
  unfold Diagnostic.error
  rw [h]
  rfl

theorem Diagnostic.error_semantic {d : Diagnostic} (h : d.family = .semantic ∨ d.family = .missingBinding) :
    d.error = "Semantic analysis failed" ++ (": " ++ d.text) := by
  rw [← String.append_assoc]
  unfold Diagnostic.error
  rcases h with h | h <;> rw [h] <;> rfl

theorem Diagnostic.error_layout {d : Diagnostic} (h : d.family = .layout) :
    d.error = "Layout failed" ++ (": " ++ d.text) := by
  rw [← String.append_assoc]
  unfold Diagnostic.error
  rw [h]
  rfl

theorem ofBuilding_eq {fault : BuildFault} {d : Diagnostic} (h : fault.diagnostic? = some d) :
    Failure.ofBuilding fault = .errors [d.error] := by
  cases fault with
  | negative | tree => cases h
  | _ =>
    cases h
    rfl

theorem LayoutFault.IsMisplaced.diagnostic {fault : LayoutFault} (h : fault.IsMisplaced) :
    ∃ d, fault.diagnostic? = some d ∧ d.family = .layout ∧ Failure.ofLayout fault = .errors [d.error] := by
  obtain ⟨cause, className, member, line, rfl⟩ := h
  exact ⟨_, rfl, rfl, rfl⟩

theorem plain_building {fault : BuildFault} {d : Diagnostic} (h : fault.diagnostic? = some d)
    (hfamily : d.family = .semantic ∨ d.family = .missingBinding) : (Failure.ofBuilding fault).Plain := by
  rw [ofBuilding_eq h, Diagnostic.error_semantic hfamily]
  exact plain_singleton (c := 'S') rfl (by decide) _

theorem plain_layout {fault : LayoutFault} (h : fault.IsMisplaced) : (Failure.ofLayout fault).Plain := by
  obtain ⟨d, -, hfamily, hfailure⟩ := h.diagnostic
  rw [hfailure, Diagnostic.error_layout hfamily]
  exact plain_singleton (c := 'L') rfl (by decide) _

/-! ### Builds -/

section
variable {file : FileNode}

theorem build_fault (strict : Bool) (h : file.WellFormed) {fault : BuildFault}
    (hfault : (build strict (file.events none)).program = .error fault) :
    ∃ d, fault.diagnostic? = some d ∧ (d.family = .semantic ∨ d.family = .missingBinding) := by
  rw [build_program strict h] at hfault
  split at hfault
  · rename_i found hfound
    cases hfault
    obtain ⟨site, hsite, hsiteFault⟩ := List.exists_of_findSome?_eq_some hfound
    obtain ⟨detail, hdetail⟩ := (Site.tells (wellFormed_sites h site hsite)).told fault hsiteFault
    refine ⟨_, hdetail, ?_⟩
    unfold Site.family
    split
    · exact Or.inl rfl
    · split
      · exact Or.inr rfl
      · exact Or.inl rfl
    · exact Or.inr rfl
  · cases hfault

theorem warnings_of_parse (strict : Bool) (h : file.WellFormed) : (build strict (file.events none)).warnings = [] := by
  refine Build.warnings_eq_nil (fun fault hfault => ?_) strict
  rintro ⟨part, line, rfl⟩
  obtain ⟨d, hd, hfamily⟩ := build_fault true h hfault
  cases hd
  rcases hfamily with hfamily | hfamily <;> cases hfamily

end

/-! ### Stages -/

/-- What is known of a compilation before its result is delivered: it has no warnings, and if it has no header, it
    fails with errors none of which is internal. --/
structure Draft.Plain (d : Draft) : Prop where
  warnings : d.warnings = []
  failure : ∀ failure, d.code = .error failure → failure.Plain

theorem deliver_of_plain {m : Type → Type} [Monad m] (files : Files m) {d : Draft} (h : d.Plain) :
    ∃ outcome notices, Settings.deliver files none d = pure ⟨.ok outcome, notices⟩ ∧ outcome.Reports := by
  unfold Settings.deliver
  cases hcode : d.code with
  | error failure =>
    obtain ⟨errors, rfl, hne, hplain⟩ := h.failure failure hcode
    exact ⟨_, _, rfl, hne, h.warnings, hplain⟩
  | ok code => exact ⟨_, _, rfl, rfl, h.warnings⟩

section
variable {s : Settings} {word : Int}

/-- Settings that all numbers can be written with, for pointers of `word` bytes. --/
structure Settings.Unlimited (word : Int) (s : Settings) : Prop where
  target : s.style.target = .ofPointerSize word
  digits : s.style.digitLimit = none
  includes : ∀ i ∈ s.options.includes, i ≠ .missing

theorem isMisplaced_of_layoutOf (htarget : s.style.target = .ofPointerSize word) (hword : 0 < word) {p : Program}
    (hp : p.WellBound) {fault : LayoutFault} (h : (s.layoutOf p).program = .error fault) : fault.IsMisplaced := by
  unfold Settings.layoutOf at h
  rw [htarget] at h
  exact Layout.layout_fault hword hp h

theorem layoutOf_fault (hs : s.Unlimited word) (hword : 0 < word) {p : Program} (hp : p.WellBound) {fault : LayoutFault}
    (h : (s.layoutOf p).program = .error fault) : fault.IsMisplaced :=
  isMisplaced_of_layoutOf hs.target hword hp h

theorem headerOf_ok (hs : s.Unlimited word) {p q : Program} (hp : p.WellBound) (h : (s.layoutOf p).program = .ok q)
    (sizes : Option SizeTable) : ∃ code, (s.headerOf q sizes).code = .ok code :=
  writeHeader_ok hs.digits hs.includes sizes (Layout.renders_of_layout hp h)

theorem draftProgram_plain (hs : s.Unlimited word) (hword : 0 < word) {p : Program} (hp : p.WellBound)
    {failure : Failure} (h : (s.draftProgram p).1 = .error failure) : failure.Plain := by
  unfold Settings.draftProgram at h
  dsimp only at h
  split at h
  · rename_i fault hfault
    cases h
    exact plain_layout (layoutOf_fault hs hword hp hfault)
  · rename_i q hq
    obtain ⟨code, hcode⟩ := headerOf_ok hs hp hq (some (s.layoutOf p).sizes)
    rw [hcode] at h
    cases h

theorem draftEvents_plain (hs : s.Unlimited word) (hword : 0 < word) {file : FileNode} (hfile : file.WellFormed)
    {failure : Failure} (h : (s.draftEvents (file.events none)).code = .error failure) : failure.Plain := by
  unfold Settings.draftEvents at h
  dsimp only at h
  split at h
  · rename_i fault hfault
    cases h
    obtain ⟨d, hd, hfamily⟩ := build_fault s.strict hfile hfault
    exact plain_building hd hfamily
  · rename_i p hp
    exact draftProgram_plain hs hword (wellBound_of_build hp) h

theorem draft_warnings (s : Settings) (source : String) : (s.draft source).warnings = [] := by
  unfold Settings.draft
  dsimp only
  split
  · split
    · rename_i file hfile
      have hwarnings := warnings_of_parse s.strict (wellFormed_of_parse hfile)
      unfold Settings.draftEvents
      dsimp only
      split <;> exact hwarnings
    · rfl
  · rfl

theorem draft_plain (hs : s.Unlimited word) (hword : 0 < word) (source : String) : (s.draft source).Plain := by
  refine ⟨draft_warnings s source, fun failure h => ?_⟩
  unfold Settings.draft at h
  dsimp only at h
  split at h
  · split at h
    · rename_i file hfile
      exact draftEvents_plain hs hword (wellFormed_of_parse hfile) h
    · rename_i fault hfault
      cases h
      exact plain_parsing fault
  · rename_i hfaults
    cases h
    exact plain_lexing (by simpa using hfaults)

end

/-! ### Drafts and deliveries -/

section
variable {s : Settings} {events : Trail TreeFault Event} {p q : Program}

theorem draftEvents_of_build_error {fault : BuildFault} (h : (build s.strict events).program = .error fault) :
    (s.draftEvents events).code = .error (.ofBuilding fault) := by
  simp [Settings.draftEvents, h]

theorem draftEvents_of_build (h : (build s.strict events).program = .ok p) :
    (s.draftEvents events).code = (s.draftProgram p).1 := by
  simp [Settings.draftEvents, h]

theorem draftEvents_of_layout_error {fault : LayoutFault} (built : (build s.strict events).program = .ok p)
    (h : (s.layoutOf p).program = .error fault) : (s.draftEvents events).code = .error (.ofLayout fault) := by
  simp [draftEvents_of_build built, Settings.draftProgram, h]

theorem draftEvents_of_layout (built : (build s.strict events).program = .ok p) (h : (s.layoutOf p).program = .ok q) :
    (s.draftEvents events).code = (s.headerOf q (some (s.layoutOf p).sizes)).code.mapError Failure.ofRendering := by
  rw [draftEvents_of_build built, Settings.draftProgram]
  simp only [h]
  cases (s.headerOf q (some (s.layoutOf p).sizes)).code <;> rfl

end

section
variable {s : Settings} {source : String} {file : FileNode} {p q : Program}

theorem draft_of_parse (lexed : (lex source).faults = []) (parsed : parse (lex source).tokens = .ok file) :
    s.draft source = s.draftEvents (file.events none) := by
  simp [Settings.draft, lexed, parsed]

theorem draft_of_layout (lexed : (lex source).faults = []) (parsed : parse (lex source).tokens = .ok file)
    (built : (s.programOf file).program = .ok p) (laidOut : (s.layoutOf p).program = .ok q) :
    (s.draft source).code = (s.headerOf q (some (s.layoutOf p).sizes)).code.mapError Failure.ofRendering := by
  rw [draft_of_parse lexed parsed]
  exact draftEvents_of_layout built laidOut

end

section
variable {m : Type → Type} [Monad m] {files : Files m} {output : Option String} {d : Draft}

theorem deliver_of_error {failure : Failure} (h : d.code = .error failure) :
    Settings.deliver files output d = pure (.failed failure d.warnings d.notices) := by
  simp [Settings.deliver, h]

theorem deliver_of_ok {code : String} (h : d.code = .ok code) :
    Settings.deliver files none d = pure ⟨.ok (.success code none d.warnings), d.notices⟩ := by
  simp [Settings.deliver, h]

end

/-- Every source compiles, without an output file, to a header or to errors none of which is internal, and without a
    warning. What it parses to fails in the build only by a mistake or a missing binding, and in the layout only by a
    misplaced member, and it has a header once it is laid out. --/
theorem compileText_reports {m : Type → Type} [Monad m] (files : Files m) {strict assertions : Bool}
    {includes : List String} {pointerSize : Option Int} {environment : Option String} {s : Settings}
    (setup : Settings.new strict ⟨assertions, includes.map .path⟩ pointerSize environment = .ok s) (source : String) :
    (∃ outcome notices, s.unlimited.compileText files source none = pure ⟨.ok outcome, notices⟩ ∧ outcome.Reports) ∧
      ∀ file, parse (lex source).tokens = .ok file →
        (∀ fault, (s.programOf file).program = .error fault →
          ∃ d, fault.diagnostic? = some d ∧ (d.family = .semantic ∨ d.family = .missingBinding)) ∧
        ∀ p, (s.programOf file).program = .ok p →
          (∀ fault, (s.layoutOf p).program = .error fault → ∃ d, fault.diagnostic? = some d ∧ d.family = .layout) ∧
          ∀ q, (s.layoutOf p).program = .ok q →
            ∃ code, (s.unlimited.headerOf q (some (s.layoutOf p).sizes)).code = .ok code := by
  obtain ⟨word, hword, rfl⟩ := settings_eq_ok setup
  have hs : (Settings.unlimited ⟨strict, .ofTarget (.ofPointerSize word), ⟨assertions, includes.map .path⟩⟩).Unlimited
      word := by
    refine ⟨rfl, rfl, fun i hi => ?_⟩
    obtain ⟨path, -, rfl⟩ := List.mem_map.mp hi
    nofun
  refine ⟨deliver_of_plain files (draft_plain hs hword source), fun file hfile => ⟨?_, fun p hp => ⟨?_, ?_⟩⟩⟩
  · exact fun fault hfault => build_fault strict (wellFormed_of_parse hfile) hfault
  · intro fault hfault
    obtain ⟨cause, className, member, line, rfl⟩ := layoutOf_fault hs hword (wellBound_of_build hp) hfault
    exact ⟨_, rfl, rfl⟩
  · exact fun q hq => headerOf_ok hs (wellBound_of_build hp) hq _

/-! A source with two mistakes, for pointers of eight bytes and with one include, where no file can be read. -/

def noFiles : Files Id := ⟨fun _ => .error .notFound, fun _ _ => .error .notFound⟩

def wideSettings : Settings := ⟨false, .ofTarget (.ofPointerSize 8), ⟨true, [.path "<cstdint>"]⟩⟩

theorem compileText_reports_duplicate :
    Settings.new false ⟨true, ["<cstdint>"].map .path⟩ (some 8) none = .ok wideSettings ∧
    ∃ outcome notices, (wideSettings.unlimited.compileText noFiles "class A {}; class A {}; int x;" none : Id _) =
      pure ⟨.ok outcome, notices⟩ ∧ outcome.Reports :=
  have setup : Settings.new false ⟨true, ["<cstdint>"].map .path⟩ (some 8) none = .ok wideSettings := rfl
  ⟨setup, (compileText_reports noFiles setup _).1⟩

end Overlay
