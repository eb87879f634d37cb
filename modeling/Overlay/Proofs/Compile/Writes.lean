import Overlay.Proofs.Files.Storage
import Overlay.Proofs.Header.Assertions

/-! What a compilation leaves of a storage. A header is written when all else has succeeded, and by a single write; so
    where there is no result, or one with errors, or no output file, nothing has changed, and otherwise nothing but the
    output file, which holds the header. -/

namespace Overlay
namespace Storage
variable {φ κ : Type} (storage : Storage φ κ) {output : Option String} {before : φ}

/-- A compilation that succeeds changes the output file, which then holds the header; any other changes nothing. --/
def Confined (output : Option String) (before : φ) (result : Compilation × φ) : Prop :=
  match result.1.outcome with
  | .ok (.success code _ _) =>
    match output.filter (!·.isEmpty) with
    | some path => storage.Wrote before result.2 path code.toUTF8
    | none => result.2 = before
  | _ => result.2 = before

theorem confined_failed (failure : Failure) (warnings : List String) (notices : List Notice) :
    storage.Confined output before (.failed failure warnings notices, before) := by
  cases failure <;> rfl

theorem confined_deliver (d : Draft) :
    storage.Confined output before ((Settings.deliver storage.files output d).run before) := by
  unfold Settings.deliver
  cases d.code with
  | error failure => exact storage.confined_failed _ _ _
  | ok code =>
    dsimp only
    split
    · rename_i hpath
      simp only [Confined, StateT.run_pure, hpath]
      rfl
    · rename_i path hpath
      split
      · exact storage.confined_failed _ _ _
      · cases hwrite : (storage.files.write path code.toUTF8).run before with
        | mk written after =>
          rw [StateT.run_bind, hwrite]
          cases written with
          | error fault =>
            obtain rfl := storage.write_fails hwrite
            exact storage.confined_failed _ _ _
          | ok =>
            have wrote := storage.write_puts hwrite
            simp only [Confined, hpath]
            exact wrote

theorem confined_compileText (s : Settings) (source : String) :
    storage.Confined output before ((s.compileText storage.files source output).run before) :=
  storage.confined_deliver _

/-- What goes on after an access that changes nothing. --/
theorem confined_bind {α : Type} {access : StateM φ α} {next : α → StateM φ Compilation}
    (keeps : (access.run before).2 = before) (h : ∀ a, storage.Confined output before ((next a).run before)) :
    storage.Confined output before ((access >>= next).run before) := by
  cases hrun : access.run before with
  | mk a after =>
    obtain rfl : after = before := by simpa [hrun] using keeps
    rw [StateT.run_bind, hrun]
    exact h a

theorem confined_compilePath (s : Settings) (path : String) :
    storage.Confined output before ((s.compilePath storage.files path output).run before) := by
  unfold Settings.compilePath
  split
  · exact storage.confined_failed _ _ _
  · refine storage.confined_bind (storage.read_keeps path before) fun found => ?_
    cases found with
    | error fault => exact storage.confined_failed _ _ _
    | ok content =>
      dsimp only
      split
      · exact storage.confined_failed _ _ _
      · exact storage.confined_compileText _ _

/-- Whatever is compiled, a file, a source or a stream of events, only a compilation that succeeds and has an output file
    changes anything, and then only this file, which holds the header. --/
theorem compilation_confined (s : Settings) (output : Option String) (before : φ) :
    (∀ path, storage.Confined output before ((s.compilePath storage.files path output).run before)) ∧
    (∀ source, storage.Confined output before ((s.compileText storage.files source output).run before)) ∧
    ∀ events, storage.Confined output before ((s.compileStream storage.files events output).run before) :=
  ⟨storage.confined_compilePath s, storage.confined_compileText s, fun _ => storage.confined_deliver _⟩

end Storage

/-! An empty source whose header takes its place. -/

def emptySource : FileSystem := ⟨[], [(["in.rel"], .file ⟨#[]⟩)]⟩

def inPlace : Compilation × FileSystem :=
  (assertingSettings.compilePath FileSystem.files "in.rel" (some "in.rel")).run emptySource

theorem inPlace_succeeds : ∃ code outputFile warnings, inPlace.1.outcome = .ok (.success code outputFile warnings) := by
  have succeeds : (match inPlace.1.outcome with
      | .ok (.success _ _ _) => true
      | _ => false) = true := by
    decide +kernel
  split at succeeds
  · exact ⟨_, _, _, ‹_›⟩
  · cases succeeds

theorem compilation_confined_in_place : ∃ code outputFile warnings,
    inPlace.1.outcome = .ok (.success code outputFile warnings) ∧
      FileSystem.places.Wrote emptySource inPlace.2 "in.rel" code.toUTF8 := by
  obtain ⟨code, outputFile, warnings, succeeds⟩ := inPlace_succeeds
  have confined := (FileSystem.storage.compilation_confined assertingSettings (some "in.rel") emptySource).1 "in.rel"
  change FileSystem.storage.Confined _ _ inPlace at confined
  rw [Storage.Confined, succeeds] at confined
  exact ⟨code, outputFile, warnings, succeeds, confined⟩

end Overlay
