import Overlay.Build.Builder
import Overlay.Header.Emitter
import Overlay.Layout.Resolver
import Overlay.Proofs.Build.Bench
import Overlay.Proofs.Build.Warnings
import Overlay.Proofs.Header.Pen

/-! Objects that are run again and again. Whatever a run begins with is cleared before it is looked at, so its outcome
    is that of a new object: the program or fault and the warnings of a build, the program or fault and the sizes of a
    layout, the header or fault and the lines of a writing, and what is said in a build or a layout. -/

namespace Overlay

/-- Runs that keep what their outcome depends on have the same outcomes one after the other as each on its own. --/
theorem outcomes_eq_map {σ ι ω : Type} {run : σ → ι → ω × σ} {fresh : ι → ω} (Kept : σ → Prop)
    (kept : ∀ s input, Kept s → Kept (run s input).2) (same : ∀ s input, Kept s → (run s input).1 = fresh input)
    {s : σ} (hs : Kept s) (inputs : List ι) : outcomes run s inputs = inputs.map fresh := by
  induction inputs generalizing s with
  | nil => rfl
  | cons input inputs ih => rw [outcomes, List.map_cons, same s input hs, ih (kept s input hs)]

/-! ### Builders -/

namespace Builder
open Build

/-- What events come to, of which a bench makes the last one `last` and puts out `t`: the builder has that bench, unless
    one has a fault, and has noted what is said. --/
inductive Took (b : Builder) (last : Bench) (t : Trail BenchFault Notice) :
    EStateM.Result BenchFault Builder Unit → Prop where
  | all {after : Builder} (whole : t.fault = none) (strict : after.strict = b.strict)
      (notices : after.notices = b.notices ++ t.items) (bench : after.bench = last) : Took b last t (.ok () after)
  | early {fault : BenchFault} {after : Builder} (stopped : t.fault = some fault) (strict : after.strict = b.strict)
      (notices : after.notices = b.notices ++ t.items) : Took b last t (.error fault after)

theorem took (events : List Event) (b : Builder) :
    Took b (Trail.feed (Bench.step b.strict) b.bench events).1 (Trail.feed (Bench.step b.strict) b.bench events).2
      (events.forM take b) := by
  induction events generalizing b with
  | nil => exact .all rfl rfl (List.append_nil _).symm rfl
  | cons e events ih =>
    change Took b _ _ (EStateM.bind (take e) (fun _ => events.forM take) b)
    unfold EStateM.bind
    cases h : b.bench.step b.strict e with
    | error fault =>
      have htake : take e b = .error fault { b with bench := b.bench.leave e } := by rw [take, h]
      rw [Trail.feed_cons_error h, htake]
      exact .early rfl rfl (List.append_nil _).symm
    | ok next =>
      have htake : take e b = .ok () ⟨b.strict, b.notices ++ next.2, next.1⟩ := by rw [take, h]
      have hrest := ih ⟨b.strict, b.notices ++ next.2, next.1⟩
      rw [Trail.feed_cons_ok h, Trail.whole_append, htake]
      dsimp only at hrest ⊢
      generalize events.forM take _ = result at hrest ⊢
      cases hrest with
      | all whole strict notices bench => exact .all whole strict (notices.trans (List.append_assoc ..)) bench
      | early stopped strict notices => exact .early stopped strict (notices.trans (List.append_assoc ..))

/-- A run takes the events from an empty bench on. --/
theorem building_eq (b : Builder) (events : Trail TreeFault Event) :
    building events b = match events.items.forM take ⟨b.strict, [], .empty⟩ with
      | .ok _ after => finish events.fault after
      | .error fault after => .error fault after := by
  change EStateM.bind (events.items.forM take) (fun _ => finish events.fault) ⟨b.strict, [], .empty⟩ = _
  unfold EStateM.bind
  cases events.items.forM take _ <;> rfl

theorem finish_eq {b : Builder} {last : State} (h : b.bench = last.bench) (fault : Option TreeFault) :
    finish fault b = match fault, Build.finish last with
      | some fault, _ => .error (.ofBuild (.tree fault)) b
      | none, .ok p => .ok p { b with notices := b.notices ++ [p.builtNotice] }
      | none, .error fault => .error (.ofBuild fault) b := by
  have hstack : b.bench.stack = last.scopes := congrArg Bench.stack h
  have hsealed : b.bench.sealed = last.sealed := congrArg Bench.sealed h
  unfold finish Build.finish
  rw [hstack, hsealed]
  cases fault with
  | some fault => rfl
  | none => cases last.scopes.allClosed <;> rfl

/-- A run has the outcome of a build, whatever the builder was left with. --/
theorem run_eq (b : Builder) (events : Trail TreeFault Event) : ∃ after, after.strict = b.strict ∧ b.run events =
    (⟨(build b.strict events).program.mapError .ofBuild, (build b.strict events).warnings,
      (build b.strict events).notices⟩, after) := by
  have h := took events.items ⟨b.strict, [], .empty⟩
  dsimp only at h
  rw [bench_feed] at h
  rw [run, building_eq]
  unfold build
  generalize Trail.feed (step b.strict) .initial events.items = fed at h ⊢
  generalize events.items.forM take _ = result at h ⊢
  obtain ⟨last, items, fault⟩ := fed
  have hitems : ∀ {after : Builder}, after.notices = [] ++ items.map id → after.notices = items := fun h => by
    rw [h, List.nil_append, List.map_id]
  cases h with
  | @early _ after stopped strict notices =>
    obtain ⟨fault, rfl, rfl⟩ := Option.map_eq_some_iff.mp stopped
    obtain ⟨isStrict, said, left⟩ := after
    obtain rfl := hitems notices
    exact ⟨⟨isStrict, said, left⟩, strict, rfl⟩
  | @all after whole strict notices bench =>
    obtain rfl : fault = none := Option.map_eq_none_iff.mp whole
    obtain ⟨isStrict, said, left⟩ := after
    obtain rfl := hitems notices
    dsimp only
    rw [finish_eq bench]
    cases events.fault with
    | some fault => exact ⟨⟨isStrict, said, left⟩, strict, rfl⟩
    | none =>
      cases Build.finish last with
      | ok p => exact ⟨⟨isStrict, said ++ [p.builtNotice], left⟩, strict, rfl⟩
      | error fault => exact ⟨⟨isStrict, said, left⟩, strict, rfl⟩

theorem run_outcome (b : Builder) (events : Trail TreeFault Event) :
    (b.run events).1 = ⟨(build b.strict events).program.mapError .ofBuild, (build b.strict events).warnings,
      (build b.strict events).notices⟩ := by
  obtain ⟨after, -, h⟩ := b.run_eq events
  rw [h]

theorem outcomes_run (b : Builder) (streams : List (Trail TreeFault Event)) :
    outcomes run b streams = streams.map fun events => ((new b.strict).run events).1 := by
  refine outcomes_eq_map (fun b' => b'.strict = b.strict) (fun b' events hb => ?_) (fun b' events hb => ?_) rfl
    streams
  · obtain ⟨after, hafter, h⟩ := b'.run_eq events
    rw [h, hafter, hb]
  · rw [run_outcome, run_outcome, hb]
    rfl

end Builder

/-! ### Resolvers -/

namespace Resolver
open Layout

/-- What declarations come to, of which a layout settles `last` and puts out `t`. --/
inductive Placed (r : Resolver) (last : Settled) (t : Trail ClassFault (Declaration × List Notice)) :
    EStateM.Result LayoutFault Resolver (List Declaration) → Prop where
  | all (whole : t.fault = none) :
      Placed r last t (.ok (t.items.map (·.1)) ⟨r.target, last, r.notices ++ t.items.flatMap (·.2)⟩)
  | early {stopped : ClassFault} (fault : t.fault = some stopped) :
      Placed r last t
        (.error stopped.fault ⟨r.target, last, r.notices ++ (t.items.flatMap (·.2) ++ stopped.notices)⟩)

theorem place_step (d : Declaration) (r : Resolver) :
    (∃ stopped, layoutDeclaration r.settled d = .error stopped ∧
      place d r = .error stopped.fault { r with notices := r.notices ++ stopped.notices }) ∨
    ∃ next laidOut notices, layoutDeclaration r.settled d = .ok (next, [(laidOut, notices)]) ∧
      place d r = .ok laidOut ⟨r.target, next, r.notices ++ notices⟩ := by
  cases d with
  | ofClass c =>
    cases h : layoutClass r.settled c with
    | error stopped => exact Or.inl ⟨stopped, by rw [layoutDeclaration, h]; rfl, by rw [place, h]⟩
    | ok l => exact Or.inr ⟨_, _, l.notices, by rw [layoutDeclaration, h]; rfl, by rw [place, h]⟩
  | _ => exact Or.inr ⟨_, _, [], rfl, by rw [List.append_nil]; rfl⟩

theorem placed (ds : List Declaration) (r : Resolver) :
    Placed r (Trail.feed layoutDeclaration r.settled ds).1 (Trail.feed layoutDeclaration r.settled ds).2
      (ds.mapM place r) := by
  induction ds generalizing r with
  | nil =>
    have hall : Placed r r.settled (.whole []) (.ok [] ⟨r.target, r.settled, r.notices ++ []⟩) := .all rfl
    rw [List.append_nil] at hall
    exact hall
  | cons d ds ih =>
    rw [List.mapM_cons]
    change Placed r _ _ (EStateM.bind (place d) (fun d' => EStateM.bind (ds.mapM place) fun ds' => pure (d' :: ds')) r)
    unfold EStateM.bind
    rcases place_step d r with ⟨stopped, hlayout, hplace⟩ | ⟨next, laidOut, notices, hlayout, hplace⟩
    · rw [hplace, Trail.feed_cons_error hlayout]
      exact .early rfl
    · have hrest := ih ⟨r.target, next, r.notices ++ notices⟩
      rw [hplace, Trail.feed_cons_ok hlayout]
      dsimp only at hrest ⊢
      generalize ds.mapM place _ = result at hrest ⊢
      cases hrest with
      | all whole =>
        rw [List.append_assoc]
        exact .all whole
      | early fault =>
        rw [List.append_assoc, ← List.append_assoc notices]
        exact .early fault

/-- A run takes the declarations with nothing settled. --/
theorem resolving_eq (r : Resolver) (p : Program) :
    resolving p r = match p.declarations.mapM place (new r.target) with
      | .ok ds after => .ok ⟨ds⟩ after
      | .error fault after => .error fault after := by
  change EStateM.bind (p.declarations.mapM place) (fun ds => pure (Program.mk ds)) (new r.target) = _
  unfold EStateM.bind
  cases p.declarations.mapM place _ <;> rfl

/-- A run has the outcome of a layout, whatever the resolver was left with. --/
theorem run_eq (r : Resolver) (p : Program) : ∃ after, after.target = r.target ∧
    r.run p = (layout r.target p, after) := by
  have h := placed p.declarations (new r.target)
  rw [run, resolving_eq]
  unfold layout
  change Placed _ (Trail.feed layoutDeclaration (.initial r.target) p.declarations).1
    (Trail.feed layoutDeclaration (.initial r.target) p.declarations).2 _ at h
  generalize Trail.feed layoutDeclaration (.initial r.target) p.declarations = fed at h ⊢
  generalize p.declarations.mapM place _ = result at h ⊢
  obtain ⟨last, items, fault⟩ := fed
  cases h with
  | all whole =>
    obtain rfl : fault = none := whole
    exact ⟨⟨r.target, last, _⟩, rfl, rfl⟩
  | @early stopped hfault =>
    obtain rfl : fault = some stopped := hfault
    exact ⟨⟨r.target, last, _⟩, rfl, rfl⟩

theorem run_outcome (r : Resolver) (p : Program) : (r.run p).1 = layout r.target p := by
  obtain ⟨after, -, h⟩ := r.run_eq p
  rw [h]

theorem outcomes_run (r : Resolver) (programs : List Program) :
    outcomes run r programs = programs.map fun p => ((new r.target).run p).1 := by
  refine outcomes_eq_map (fun r' => r'.target = r.target) (fun r' p hr => ?_) (fun r' p hr => ?_) rfl programs
  · obtain ⟨after, hafter, h⟩ := r'.run_eq p
    rw [h, hafter, hr]
  · rw [run_outcome, run_outcome, hr]
    rfl

end Resolver

/-! ### Emitters -/

namespace Emitter

/-- A run has the outcome of a writing, whatever the emitter was left with. --/
theorem run_eq (e : Emitter) (p : Program) : ∃ after : Emitter, after.style = e.style ∧ after.options = e.options ∧
    e.run p = (((writeHeader e.style e.options none p).code,
      (writeHeader e.style e.options none p).lines.map (·.text e.style)), after) := by
  have h := Pen.writeHeader_writtenBy e.style e.options none p
  change Pen.WrittenBy e.style _ (Pen.header e.style e.options p (e.atStart p)) at h
  unfold run
  generalize Pen.header e.style e.options p (e.atStart p) = result at h ⊢
  cases h with
  | @whole pen lines code =>
    refine ⟨{ e with pen }, rfl, rfl, ?_⟩
    rw [lines, code]
  | @early pen fault lines code =>
    refine ⟨{ e with pen }, rfl, rfl, ?_⟩
    rw [lines, code]

theorem run_outcome (e : Emitter) (p : Program) : (e.run p).1 = ((writeHeader e.style e.options none p).code,
    (writeHeader e.style e.options none p).lines.map (·.text e.style)) := by
  obtain ⟨after, -, -, h⟩ := e.run_eq p
  rw [h]

theorem outcomes_run (e : Emitter) (programs : List Program) :
    outcomes run e programs = programs.map fun p => ((new e.style e.options).run p).1 := by
  refine outcomes_eq_map (fun e' => e'.style = e.style ∧ e'.options = e.options)
    (fun e' p ⟨hstyle, hoptions⟩ => ?_) (fun e' p ⟨hstyle, hoptions⟩ => ?_) ⟨rfl, rfl⟩ programs
  · obtain ⟨after, hstyle', hoptions', h⟩ := e'.run_eq p
    rw [h, hstyle', hoptions']
    exact ⟨hstyle, hoptions⟩
  · rw [run_outcome, run_outcome, hstyle, hoptions]
    rfl

end Emitter

/-- Runs of one object have the outcomes of new objects with its options, whatever it is left with before the first of
    them, and whether or not any of them ends early. These are the outcomes of a build, a layout and a writing. --/
theorem reuse_carries_nothing :
    (∀ (b : Builder) (streams : List (Trail TreeFault Event)), outcomes Builder.run b streams =
      streams.map fun events => ((Builder.new b.strict).run events).1) ∧
    (∀ (r : Resolver) (programs : List Program), outcomes Resolver.run r programs =
      programs.map fun p => ((Resolver.new r.target).run p).1) ∧
    (∀ (e : Emitter) (programs : List Program), outcomes Emitter.run e programs =
      programs.map fun p => ((Emitter.new e.style e.options).run p).1) ∧
    (∀ strict events, ((Builder.new strict).run events).1 =
      ⟨(build strict events).program.mapError .ofBuild, (build strict events).warnings,
        (build strict events).notices⟩) ∧
    (∀ target p, ((Resolver.new target).run p).1 = layout target p) ∧
    (∀ style options p, ((Emitter.new style options).run p).1 = ((writeHeader style options none p).code,
      (writeHeader style options none p).lines.map (·.text style))) := by
  refine ⟨Builder.outcomes_run, Resolver.outcomes_run, Emitter.outcomes_run, fun strict events => ?_,
    fun target p => ?_, fun style options p => ?_⟩
  · rw [Builder.run_outcome]
    rfl
  · rw [Resolver.run_outcome]
    rfl
  · rw [Emitter.run_outcome]
    rfl

/-- A class that a build has closed before it ended early is no duplicate in the next one. --/
example : outcomes Builder.run (.new true)
    [.whole [⟨.ofClass, .opening, 1, "", ["A"]⟩, .closes .ofClass 1 "", .closes .ofParameter 2 "x"],
      .whole [⟨.ofClass, .opening, 1, "", ["A"]⟩, .closes .ofClass 1 ""]] =
    [⟨.error (.ofBuild (.inconsistent .strayParameter 2)), [], [.sealed "A" 0]⟩,
      ⟨.ok ⟨[.ofClass ⟨"A", [], [], 1⟩]⟩, [], [.sealed "A" 0, .built 1 0 0 0]⟩] := by rfl

end Overlay
