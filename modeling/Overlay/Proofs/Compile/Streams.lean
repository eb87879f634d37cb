import Mathlib.Algebra.Ring.Int.Defs
import Overlay.Proofs.Build.Faults
import Overlay.Proofs.Compile.Outcome

/-! What compiling a stream of events comes to, whoever made it. It is a header, or one error that begins with the phase
    that has failed, with two exceptions: an address below zero ends the compilation where it is bound, and a gap between
    two fields ends it where it is written, if its number of bytes has too many digits. -/

namespace Overlay

/-! ### Numbers with too many digits -/

/-- A class of the program has a pad whose number of bytes has more than `limit` digits. --/
def Program.HasVastPad (limit : Nat) (p : Program) : Prop :=
  ∃ c ∈ p.classes, ∃ (start : Nat) (size : Int), .pad start size ∈ c.fields ∧ 10 ^ limit ≤ size

theorem write?_eq_none_iff {limit : Nat} (hlimit : 0 < limit) {n : Int} (hn : 0 < n) :
    Numeral.write? (some limit) n = none ↔ 10 ^ limit ≤ n := by
  have hdigits := Nat.length_toDigits_le_iff (n := n.natAbs) (by decide : 1 < 10) hlimit
  have hpow : (10 ^ limit : Int) = ((10 ^ limit : Nat) : Int) := by push_cast; rfl
  simp only [Numeral.write?, Option.any_some, decide_eq_true_eq, ite_eq_left_iff, reduceCtorEq, imp_false, not_not, hpow]
  omega

theorem declarator?_pad {limit : Nat} (hlimit : 0 < limit) (start : Nat) {size : Int} (hsize : 0 < size) :
    (Variable.pad start size).declarator? (some limit) = none ↔ 10 ^ limit ≤ size := by
  rw [← write?_eq_none_iff hlimit hsize]
  exact Option.map_eq_none_iff

/-- In a program that is laid out, only pads can have too many digits. --/
theorem overlong_iff_vastPad {limit : Nat} (hlimit : 0 < limit) {target : Target} {p q : Program} (hp : p.WellBound)
    (h : (layout target p).program = .ok q) :
    (∃ d ∈ q.declarations, d.Overlong (some limit)) ↔ q.HasVastPad limit := by
  constructor
  · rintro ⟨d, hd, hlong⟩
    cases d with
    | ofClass c =>
      obtain ⟨member, hmember, hlong⟩ := hlong
      cases member with
      | ofVariable v =>
        have hc := Program.mem_classes.mpr hd
        have hv := Class.mem_fields.mpr hmember
        rcases Layout.fieldOrPad_of_layout hp h hc v hv with ⟨-, hlength⟩ | ⟨start, size, hsize, rfl⟩
        · simp [Declaration.MemberOverlong, Variable.declarator?, hlength] at hlong
        · exact ⟨c, hc, start, size, hv, (declarator?_pad hlimit start hsize).mp hlong⟩
      | _ => exact hlong.elim
    | _ => exact hlong.elim
  · rintro ⟨c, hc, start, size, hv, hvast⟩
    have hsize : 0 < size := Int.lt_of_lt_of_le (Int.pow_pos (by decide)) hvast
    exact ⟨_, Program.mem_classes.mp hc, _, Class.mem_fields.mp hv, (declarator?_pad hlimit start hsize).mpr hvast⟩

/-! ### Ways to end -/

namespace Settings

/-- A stream is compiled to a header: it is built, laid out and written. --/
structure StreamEmits (s : Settings) (events : List Event) (p q : Program) (code : String) : Prop where
  built : (build s.strict (.whole events)).program = .ok p
  laidOut : (s.layoutOf p).program = .ok q
  written : (s.headerOf q (some (s.layoutOf p).sizes)).code = .ok code

/-- A stream fails in a phase, which has a name, with a diagnostic. --/
inductive StreamFails (s : Settings) (events : List Event) : String → Diagnostic → Prop where
  | inconsistent {fault : BuildFault} {d : Diagnostic} (fails : (build s.strict (.whole events)).program = .error fault)
      (told : fault.diagnostic? = some d) (family : d.family = .internal) :
      StreamFails s events "internal compiler error" d
  | mistaken {fault : BuildFault} {d : Diagnostic} (fails : (build s.strict (.whole events)).program = .error fault)
      (told : fault.diagnostic? = some d) (family : d.family = .semantic ∨ d.family = .missingBinding) :
      StreamFails s events "Semantic analysis failed" d
  | misplaced {p : Program} {fault : LayoutFault} {d : Diagnostic} (built : (build s.strict (.whole events)).program = .ok p)
      (fails : (s.layoutOf p).program = .error fault) (told : fault.diagnostic? = some d) (family : d.family = .layout) :
      StreamFails s events "Layout failed" d

/-- A stream ends its compilation without a result. --/
inductive StreamAborts (s : Settings) (events : List Event) : Abort → Prop where
  | negative {binding : NegativeBinding} (binds : Build.BindsBelowZero s.strict events binding) :
      StreamAborts s events (.negative binding)
  | tooManyDigits {p q : Program} (built : (build s.strict (.whole events)).program = .ok p)
      (laidOut : (s.layoutOf p).program = .ok q) (vast : q.HasVastPad Numeral.digitLimit) :
      StreamAborts s events .tooManyDigits

end Settings

theorem Settings.StreamFails.error_eq {s : Settings} {events : List Event} {phase : String} {d : Diagnostic}
    (h : s.StreamFails events phase d) : d.error = phase ++ ": " ++ d.text := by
  rw [String.append_assoc]
  cases h with
  | inconsistent _ _ family => exact Diagnostic.error_internal family
  | mistaken _ _ family => exact Diagnostic.error_semantic family
  | misplaced _ _ _ family => exact Diagnostic.error_layout family

/-! ### Drafts -/

section
variable {s : Settings} {word : Int} {events : List Event}

/-- Settings as they are made, for pointers of `word` bytes. --/
structure Settings.Usual (word : Int) (s : Settings) : Prop where
  target : s.style.target = .ofPointerSize word
  word : 0 < word
  digits : s.style.digitLimit = some Numeral.digitLimit
  includes : ∀ i ∈ s.options.includes, i ≠ .missing

theorem usual_of_new {strict assertions : Bool} {includes : List String} {pointerSize : Option Int}
    {environment : Option String}
    (h : Settings.new strict ⟨assertions, includes.map .path⟩ pointerSize environment = .ok s) : ∃ word, s.Usual word := by
  obtain ⟨word, hword, rfl⟩ := settings_eq_ok h
  refine ⟨word, rfl, hword, rfl, fun i hi => ?_⟩
  obtain ⟨path, -, rfl⟩ := List.mem_map.mp hi
  nofun

/-- The header of a program that is laid out fails exactly if the program has a pad with too many digits. --/
theorem headerOf_eq_error_iff (hs : s.Usual word) {p q : Program} (hp : p.WellBound)
    (h : (s.layoutOf p).program = .ok q) (sizes : Option SizeTable) {fault : RenderFault} :
    (s.headerOf q sizes).code = .error fault ↔ fault = .tooManyDigits ∧ q.HasVastPad Numeral.digitLimit := by
  rw [← overlong_iff_vastPad (by decide) hp h, ← hs.digits]
  exact writeHeader_eq_error_iff hs.includes sizes (Layout.renders_of_layout hp h)

theorem draftEvents_warnings (s : Settings) (events : List Event) :
    (s.draftEvents (.whole events)).warnings = (build s.strict (.whole events)).warnings := by
  unfold Settings.draftEvents
  dsimp only
  split <;> rfl

/-- What the draft of a stream comes to: an abort, an error or a header. --/
theorem draftEvents_cases (hs : s.Usual word) (events : List Event) :
    (∃ abort, s.StreamAborts events abort ∧ (s.draftEvents (.whole events)).code = .error (.aborted abort)) ∨
    (∃ phase d, s.StreamFails events phase d ∧ (s.draftEvents (.whole events)).code = .error (.errors [d.error])) ∨
    ∃ p q code, s.StreamEmits events p q code ∧ (s.draftEvents (.whole events)).code = .ok code := by
  cases hbuild : (build s.strict (.whole events)).program with
  | error fault =>
    rw [draftEvents_of_build_error hbuild]
    rcases Build.build_whole_fault hbuild with ⟨d, hd⟩ | ⟨binding, rfl, hbinds⟩
    · rw [ofBuilding_eq hd]
      rcases BuildFault.family_eq hd with family | family
      · exact Or.inr (Or.inl ⟨_, d, .inconsistent hbuild hd family, rfl⟩)
      · exact Or.inr (Or.inl ⟨_, d, .mistaken hbuild hd family, rfl⟩)
    · exact Or.inl ⟨_, .negative hbinds, rfl⟩
  | ok p =>
    have hp := wellBound_of_build hbuild
    cases hlayout : (s.layoutOf p).program with
    | error fault =>
      obtain ⟨d, hd, family, hfailure⟩ := (isMisplaced_of_layoutOf hs.target hs.word hp hlayout).diagnostic
      rw [draftEvents_of_layout_error hbuild hlayout, hfailure]
      exact Or.inr (Or.inl ⟨_, d, .misplaced hbuild hlayout hd family, rfl⟩)
    | ok q =>
      rw [draftEvents_of_layout hbuild hlayout]
      cases hcode : (s.headerOf q (some (s.layoutOf p).sizes)).code with
      | error fault =>
        obtain ⟨rfl, hvast⟩ := (headerOf_eq_error_iff hs hp hlayout _).mp hcode
        exact Or.inl ⟨_, .tooManyDigits hbuild hlayout hvast, rfl⟩
      | ok code => exact Or.inr (Or.inr ⟨p, q, code, ⟨hbuild, hlayout, hcode⟩, rfl⟩)

theorem draftEvents_eq_aborted_iff (hs : s.Usual word) {abort : Abort} :
    (s.draftEvents (.whole events)).code = .error (.aborted abort) ↔ s.StreamAborts events abort := by
  constructor
  · intro h
    rcases draftEvents_cases hs events with ⟨found, haborts, hcode⟩ | ⟨phase, d, -, hcode⟩ | ⟨p, q, code, -, hcode⟩
    · rw [h] at hcode
      cases hcode
      exact haborts
    · rw [h] at hcode
      cases hcode
    · rw [h] at hcode
      cases hcode
  · rintro (binds | ⟨built, laidOut, vast⟩)
    · exact draftEvents_of_build_error (Build.build_of_bindsBelowZero binds)
    · rw [draftEvents_of_layout built laidOut,
        (headerOf_eq_error_iff hs (wellBound_of_build built) laidOut _).mpr ⟨rfl, vast⟩]
      rfl

end

/-! ### Results -/

/-- Compiling any stream of events without an output file comes to a result, unless the stream binds an address below
    zero or leads to a pad with too many digits. A result is a header, without errors, or no header and one error,
    which begins with the name of the phase that has failed. --/
theorem compileStream_results {m : Type → Type} [Monad m] (files : Files m) {strict assertions : Bool}
    {includes : List String} {pointerSize : Option Int} {environment : Option String} {s : Settings}
    (setup : Settings.new strict ⟨assertions, includes.map .path⟩ pointerSize environment = .ok s) (events : List Event) :
    ∃ outcome notices, s.compileStream files (.whole events) none = pure ⟨outcome, notices⟩ ∧
      (∀ abort, outcome = .error abort ↔ s.StreamAborts events abort) ∧
      ∀ result, outcome = .ok result →
        (∃ p q code, s.StreamEmits events p q code ∧
          result = .success code none (build s.strict (.whole events)).warnings) ∨
        ∃ phase d, s.StreamFails events phase d ∧
          result = .failure [phase ++ ": " ++ d.text] (build s.strict (.whole events)).warnings := by
  obtain ⟨word, hs⟩ := usual_of_new setup
  unfold Settings.compileStream
  simp only [← draftEvents_eq_aborted_iff hs, ← draftEvents_warnings]
  rcases draftEvents_cases hs events with ⟨abort, -, hcode⟩ | ⟨phase, d, hfails, hcode⟩ | ⟨p, q, code, hemits, hcode⟩
  · exact ⟨.error abort, _, deliver_of_error hcode, by simp [hcode], nofun⟩
  · refine ⟨.ok (.failure [d.error] _), _, deliver_of_error hcode, by simp [hcode], fun result hresult => ?_⟩
    cases hresult
    exact Or.inr ⟨phase, d, hfails, by rw [hfails.error_eq]⟩
  · refine ⟨.ok (.success code none _), _, deliver_of_ok hcode, by simp [hcode], fun result hresult => ?_⟩
    cases hresult
    exact Or.inl ⟨p, q, code, hemits, rfl⟩

/-! The stream of loose events, in a lenient compilation. -/

theorem laidOut_loose : (wideSettings.layoutOf looseProgram).program = .ok looseProgram := rfl

theorem headerLines_loose : (headerLines wideSettings.style wideSettings.options
    (some (wideSettings.layoutOf looseProgram).sizes) looseProgram).fault = none := by
  decide +kernel

theorem draft_loose : (wideSettings.draftEvents (.whole looseEvents)).code = .ok (headerText wideSettings.style
    (headerLines wideSettings.style wideSettings.options (some (wideSettings.layoutOf looseProgram).sizes)
      looseProgram).items) := by
  have built : (build false (.whole looseEvents)).program = .ok looseProgram := rfl
  rw [draftEvents_of_layout built laidOut_loose, Settings.headerOf, writeHeader_of_fault headerLines_loose]
  rfl

theorem compileStream_results_loose :
    Settings.new false ⟨true, ["<cstdint>"].map .path⟩ (some 8) none = .ok wideSettings ∧
    ∃ p q code, wideSettings.StreamEmits looseEvents p q code ∧
      Compilation.outcome (wideSettings.compileStream noFiles (.whole looseEvents) none) =
        .ok (.success code none ["calling convention outside of a function declaration (line 1)"]) := by
  have setup : Settings.new false ⟨true, ["<cstdint>"].map .path⟩ (some 8) none = .ok wideSettings := rfl
  have hwarnings : (build false (.whole looseEvents)).warnings =
      ["calling convention outside of a function declaration (line 1)"] := by decide +kernel
  obtain ⟨outcome, notices, hdelivered, -, hresults⟩ := compileStream_results noFiles setup looseEvents
  have houtcome : outcome = .ok (.success _ none (wideSettings.draftEvents (.whole looseEvents)).warnings) :=
    congrArg Compilation.outcome (hdelivered.symm.trans (deliver_of_ok draft_loose))
  rcases hresults _ houtcome with ⟨p, q, code, hemits, hresult⟩ | ⟨phase, d, -, hresult⟩
  · rw [show wideSettings.strict = false from rfl, hwarnings] at hresult
    exact ⟨setup, p, q, code, hemits, by rw [hdelivered, ← hresult]; exact houtcome⟩
  · cases hresult

/-! An address with a minus sign. -/

def signedEvents : List Event :=
  [.opens .ofVariable 1 "", .opens .ofPlainType 1 "int", .opens .ofAddress 1 "-5", .closes .ofVariable 1 "x"]

theorem built_signed : (build false (.whole signedEvents)).program = .error (.negative ⟨-5⟩) := rfl

/-- A stream with this address ends its compilation without a result. --/
theorem compileStream_aborts_signed :
    Settings.new false ⟨true, ["<cstdint>"].map .path⟩ (some 8) none = .ok wideSettings ∧
    Compilation.outcome (wideSettings.compileStream noFiles (.whole signedEvents) none) =
      .error (.negative ⟨-5⟩) ∧
    Abort.message (.negative ⟨-5⟩) = "negative binding: -5" := by
  refine ⟨rfl, ?_, by decide +kernel⟩
  rw [Settings.compileStream, deliver_of_error (draftEvents_of_build_error built_signed)]
  rfl

end Overlay
