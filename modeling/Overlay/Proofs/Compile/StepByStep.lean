import Overlay.Proofs.Compile.Formatting
import Overlay.Proofs.Header.Assertions
import Overlay.Proofs.Layout.LastFields
import Overlay.Proofs.Layout.TablePointers

/-! Compilations step by step. Every stage can be called for itself with what the one before has given. The header is
    then written without the sizes of the layout, and asserts those that the program tells. All other lines of a header
    are written without a size, so a compilation has the same ones; and where both assert a size of a class, it is the
    same, as the sizes of a layout and those along last fields never contradict each other. -/

namespace Overlay

/-! ### Headers without their assertions -/

def HeaderLine.isAssertion : HeaderLine → Bool
  | .assertion _ _ => true
  | _ => false

def withoutAssertions (lines : List HeaderLine) : List HeaderLine := lines.filter (!·.isAssertion)

namespace Header

def unasserted (t : Rendering) : Rendering := ⟨withoutAssertions t.items, t.fault⟩

theorem unasserted_append (t u : Rendering) : unasserted (t ++ u) = unasserted t ++ unasserted u := by
  obtain ⟨items, _ | fault⟩ := t
  · exact congrArg (Trail.mk · u.fault) (List.filter_append items u.items)
  · rfl

theorem unasserted_concatMap {α : Type} {f g : α → Rendering} (h : ∀ a, unasserted (f a) = unasserted (g a)) :
    ∀ as : List α, unasserted (Trail.concatMap f as) = unasserted (Trail.concatMap g as)
  | [] => rfl
  | a :: as => by
    rw [Trail.concatMap, Trail.concatMap, unasserted_append, unasserted_append, h a, unasserted_concatMap h as]

variable {style : Style}

theorem unasserted_classLines (size size' : Option Int) (c : Class) :
    unasserted (classLines style size c) = unasserted (classLines style size' c) := by
  have hclosing : ∀ size, withoutAssertions (classClosing style size c) =
      withoutAssertions (classClosing style none c) := fun size => by cases size <;> rfl
  have hwhole : unasserted (.whole (classClosing style size c)) = unasserted (.whole (classClosing style size' c)) :=
    congrArg Trail.whole ((hclosing size).trans (hclosing size').symm)
  simp only [classLines, unasserted_append, hwhole]

theorem unasserted_declaration (sizeOf? sizeOf?' : String → Option Int) (d : Declaration) :
    unasserted (declaration style sizeOf? d) = unasserted (declaration style sizeOf?' d) := by
  cases d with
  | ofClass c => exact unasserted_classLines (sizeOf? c.name) (sizeOf?' c.name) c
  | _ => rfl

end Header

theorem unasserted_headerLines (style : Style) (options : HeaderOptions) (sizes sizes' : Option SizeTable) (p : Program) :
    Header.unasserted (headerLines style options sizes p) = Header.unasserted (headerLines style options sizes' p) := by
  rw [headerLines, headerLines, Header.unasserted_append, Header.unasserted_append]
  exact congrArg _ (Header.unasserted_concatMap (Header.unasserted_declaration _ _) p.declarations)

/-! ### Two headers of one program -/

section
variable {style : Style} {options : HeaderOptions} {sizes sizes' : Option SizeTable} {p : Program}

theorem headerLines_fault (h : (headerLines style options sizes p).fault = none) :
    (headerLines style options sizes' p).fault = none := by
  have hfault := congrArg Trail.fault (unasserted_headerLines style options sizes' sizes p)
  exact hfault.trans h

/-- Whatever the sizes to assert, a program has a header or none. --/
theorem writeHeader_sizes {code : String} (h : (writeHeader style options sizes p).code = .ok code)
    (sizes' : Option SizeTable) : ∃ code', (writeHeader style options sizes' p).code = .ok code' :=
  ⟨_, writeHeader_of_fault (headerLines_fault (writeHeader_eq_ok h).1)⟩

theorem text_of_writeHeader {code : String} (h : (writeHeader style options sizes p).code = .ok code) :
    code = headerText style (writeHeader style options sizes p).lines := by
  obtain ⟨-, hlines, hcode⟩ := writeHeader_eq_ok h
  rw [hlines, hcode]

end

/-- Lines that are the same without their assertions, and never assert two sizes of a class. --/
structure AgreeButForAssertions (lines others : List HeaderLine) : Prop where
  rest : withoutAssertions lines = withoutAssertions others
  sizes : ∀ name n m, .assertion name n ∈ lines → .assertion name m ∈ others → n = m

/-- The header of a program that is laid out, and the one that asserts the sizes of the layout. --/
theorem headers_agree {style : Style} {options : HeaderOptions} {p q : Program}
    (names : (p.classes.map (·.name)).Nodup) (laidOut : (layout style.target p).program = .ok q) {code : String}
    (h : (writeHeader style options none q).code = .ok code) :
    AgreeButForAssertions (writeHeader style options none q).lines
      (writeHeader style options (some (layout style.target p).sizes) q).lines := by
  obtain ⟨code', h'⟩ := writeHeader_sizes h (some (layout style.target p).sizes)
  obtain ⟨hfault, hlines, -⟩ := writeHeader_eq_ok h
  obtain ⟨hfault', hlines', -⟩ := writeHeader_eq_ok h'
  rw [hlines, hlines']
  refine ⟨congrArg Trail.items (unasserted_headerLines style options none _ q), fun name n m hn hm => ?_⟩
  obtain ⟨-, hn⟩ := (mem_headerLines hfault).mp hn
  obtain ⟨-, hm⟩ := (mem_headerLines hfault').mp hm
  unfold assertedSize at hn hm
  split at hn
  · rw [if_pos ‹_›] at hm
    exact (Layout.sizeOf?_agree laidOut names hm hn).symm
  · cases hn

/-! ### Stages one by one -/

/-- What the stages give one by one, each called with what the one before has given. The last one is not told the sizes
    of the layout. --/
structure Settings.Steps (s : Settings) (source : String) (tokens : List Token) (file : FileNode) (p q : Program)
    (code : String) : Prop where
  lexed : (lex source).result = .ok tokens
  parsed : parse tokens = .ok file
  built : (s.programOf file).program = .ok p
  laidOut : (s.layoutOf p).program = .ok q
  written : (s.headerOf q none).code = .ok code

theorem result_eq_ok {l : Lexed} {tokens : List Token} : l.result = .ok tokens ↔ l.faults = [] ∧ l.tokens = tokens := by
  unfold Lexed.result
  split <;> simp [*]

section
variable {s : Settings} {source : String}

theorem faults_of_draft {code : String} (h : (s.draft source).code = .ok code) : (lex source).faults = [] := by
  by_contra hfaults
  rw [(Settings.FailsIn.lexing hfaults).code] at h
  cases h

theorem steps_of_draft {code : String} (h : (s.draft source).code = .ok code) :
    ∃ tokens file p q code', s.Steps source tokens file p q code' := by
  obtain ⟨file, p, q, parsed, built, laidOut, written⟩ := draft_eq_ok h
  obtain ⟨code', hcode'⟩ := writeHeader_sizes written none
  exact ⟨_, file, p, q, code', result_eq_ok.mpr ⟨faults_of_draft h, rfl⟩, parsed, built, laidOut, hcode'⟩

theorem Settings.Steps.draft {tokens : List Token} {file : FileNode} {p q : Program} {code : String}
    (h : s.Steps source tokens file p q code) :
    (s.draft source).code = .ok (headerText s.style (s.headerOf q (some (s.layoutOf p).sizes)).lines) := by
  obtain ⟨lexed, htokens⟩ := result_eq_ok.mp h.lexed
  have parsed := h.parsed
  rw [← htokens] at parsed
  obtain ⟨code', hcode'⟩ := writeHeader_sizes h.written (some (s.layoutOf p).sizes)
  have hheader : (s.headerOf q (some (s.layoutOf p).sizes)).code = .ok code' := hcode'
  rw [draft_of_layout lexed parsed h.built h.laidOut, hheader, text_of_writeHeader hcode']
  rfl

end

/-- The stages of a source succeed one by one if and only if it compiles. Both have the same lines but for the
    assertions, and never assert two sizes of one class. The code of both is that of their lines, each with a line feed. --/
theorem steps_agree (s : Settings) (files : Files Id) (source : String) :
    ((∃ tokens file p q code, s.Steps source tokens file p q code) ↔ ∃ code outputFile warnings,
      Compilation.outcome (s.compileText files source none) = .ok (.success code outputFile warnings)) ∧
    (∀ className n, (HeaderLine.assertion className n).text s.style =
      s!"static_assert(sizeof({className}) == {Hexadecimal.address n}, \"{s.style.sizeMessage}\");") ∧
    ∀ tokens file p q code, s.Steps source tokens file p q code →
      code = String.intercalate "\n" ((s.headerOf q none).lines.map (·.text s.style)) ++ "\n" ∧
      Compilation.outcome (s.compileText files source none) = .ok (.success
        (String.intercalate "\n" ((s.headerOf q (some (s.layoutOf p).sizes)).lines.map (·.text s.style)) ++ "\n")
        none []) ∧
      AgreeButForAssertions (s.headerOf q none).lines (s.headerOf q (some (s.layoutOf p).sizes)).lines := by
  have hcompiles : ∀ tokens file p q code, s.Steps source tokens file p q code →
      Compilation.outcome (s.compileText files source none) =
        .ok (.success (headerText s.style (s.headerOf q (some (s.layoutOf p).sizes)).lines) none []) := by
    intro tokens file p q code h
    rw [Settings.compileText, deliver_of_ok h.draft, draft_warnings]
    rfl
  refine ⟨⟨?_, ?_⟩, HeaderLine.text_assertion, ?_⟩
  · rintro ⟨tokens, file, p, q, code, h⟩
    exact ⟨_, _, _, hcompiles tokens file p q code h⟩
  · rintro ⟨code, outputFile, warnings, h⟩
    exact steps_of_draft (code_of_deliver h)
  · intro tokens file p q code h
    exact ⟨text_of_writeHeader h.written, hcompiles tokens file p q code h,
      headers_agree (wellBound_of_build h.built).names h.laidOut h.written⟩

/-! The last class of `pairSource` has no field, so only the layout has a size to assert of it. -/

def pairLines : List HeaderLine := (assertingSettings.headerOf Layout.pairProgram none).lines

def pairLinesOfLayout : List HeaderLine :=
  (assertingSettings.headerOf Layout.pairProgram (some (assertingSettings.layoutOf Layout.pairProgram).sizes)).lines

theorem written_pair : (headerLines assertingSettings.style assertingSettings.options none Layout.pairProgram).fault =
    none := by
  decide +kernel

theorem steps_agree_pair : (∃ tokens code,
      assertingSettings.Steps Layout.pairSource tokens Layout.pairFile Layout.pairProgram Layout.pairProgram code) ∧
    (∃ code, Compilation.outcome (assertingSettings.compileText noFiles Layout.pairSource none) =
      .ok (.success code none [])) ∧
    .assertion "C" 12 ∈ pairLinesOfLayout ∧ AgreeButForAssertions pairLines pairLinesOfLayout := by
  have steps : assertingSettings.Steps Layout.pairSource (lex Layout.pairSource).tokens Layout.pairFile
      Layout.pairProgram Layout.pairProgram _ :=
    ⟨by with_unfolding_all rfl, Layout.parse_pair, Layout.built_pair, Layout.laidOut_pair,
      writeHeader_of_fault written_pair⟩
  obtain ⟨-, compiled, agree⟩ := (steps_agree assertingSettings noFiles Layout.pairSource).2.2 _ _ _ _ _ steps
  exact ⟨⟨_, _, steps⟩, ⟨_, compiled⟩, by decide +kernel, agree⟩

end Overlay
