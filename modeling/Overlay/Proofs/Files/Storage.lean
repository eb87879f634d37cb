import Overlay.Files.FileSystem

/-! Files as they are kept. A storage has places, and paths lead to them. Reading changes nothing in it; writing either
    fails and changes nothing, or puts the content at the place that the path leads to and leaves all other places as
    they are. A file system that is a value is one. -/

namespace Overlay

/-- Places: what is at them, and the ones that paths lead to. --/
structure Places (φ κ : Type) where
  entry? : φ → κ → Option Entry
  place? : φ → String → Option κ

/-- A file has been written: its path leads to the content, and no other place has changed. --/
def Places.Wrote {φ κ : Type} (places : Places φ κ) (before after : φ) (path : String) (content : ByteArray) : Prop :=
  ∃ place, places.place? before path = some place ∧ places.place? after path = some place ∧
    places.entry? after place = some (.file content) ∧
    ∀ other, other ≠ place → places.entry? after other = places.entry? before other

/-- Files with their places. A file is opened or is not: what fails has written nothing, and what does not fail has
    written everything. A text is a list of Unicode scalar values, so what is written always has an encoding, and no
    write fails once its file is open. --/
structure Storage (φ κ : Type) extends Places φ κ where
  files : Files (StateM φ)
  read_keeps : ∀ path before, ((files.read path).run before).2 = before
  write_fails : ∀ {path content before after fault}, (files.write path content).run before = (.error fault, after) →
    after = before
  write_puts : ∀ {path content before after}, (files.write path content).run before = (.ok (), after) →
    toPlaces.Wrote before after path content

namespace FileSystem
variable {fs : FileSystem} {place : Location}

/-! ### What is at a place -/

theorem lookup_filter_ne {entries : List (Location × Entry)} {other : Location} (hne : other ≠ place) :
    (entries.filter (·.1 != place)).lookup other = entries.lookup other := by
  induction entries with
  | nil => rfl
  | cons head entries ih =>
    obtain ⟨key, entry⟩ := head
    by_cases hkey : key = place
    · have hother : (other == key) = false := beq_false_of_ne (hkey ▸ hne)
      rw [List.filter_cons_of_neg (by simp [hkey]), ih, List.lookup_cons, hother]
    · rw [List.filter_cons_of_pos (by simpa using hkey), List.lookup_cons, List.lookup_cons, ih]

theorem entry?_put_of_ne (entry : Entry) {other : Location} (hne : other ≠ place) :
    entry? (fs.put place entry) other = fs.entry? other := by
  have hother : (other == place) = false := beq_false_of_ne hne
  simp only [put, entry?, List.lookup_cons, hother, lookup_filter_ne hne]

/-- What is put at a place is there, unless the place is a directory on the way to the working directory. --/
theorem entry?_put_self (entry : Entry) (hplace : (fs.entry? place).any Entry.isDirectory = false) :
    entry? (fs.put place entry) place = some entry := by
  cases hworking : place.isPrefixOf fs.workingDirectory with
  | true =>
    unfold entry? at hplace
    rw [if_pos hworking] at hplace
    cases hplace
  | false => simp [put, entry?, hworking]

/-! ### Paths after a file is put down -/

section
variable {content : ByteArray}

theorem enter_put (hplace : (fs.entry? place).any Entry.isDirectory = false) {here next : Location} {name : String}
    (h : fs.enter here name = .ok next) : (fs.put place (.file content)).enter here name = .ok next := by
  unfold enter at h ⊢
  split at h
  · rwa [if_pos ‹_›]
  · rw [if_neg ‹_›]
    split at h
    · rwa [if_pos ‹_›]
    · rw [if_neg ‹_›]
      dsimp only at h ⊢
      -- The way leads through a directory, and the file is put down where there is none.
      have hne : (fs.entry? (here ++ [name])).any Entry.isDirectory = true → here ++ [name] ≠ place := by
        rintro hdirectory rfl
        rw [hplace] at hdirectory
        cases hdirectory
      split at h
      · rename_i hentry
        rw [entry?_put_of_ne _ (hne (by rw [hentry]; rfl)), hentry]
        exact h
      · cases h
      · cases h

theorem follow_put (hplace : (fs.entry? place).any Entry.isDirectory = false) {names : List String} {here : Location}
    {found : Option Location} (h : fs.follow here names = .ok found) :
    (fs.put place (.file content)).follow here names = .ok found := by
  induction names generalizing here with
  | nil => exact h
  | cons name names ih =>
    cases names with
    | nil => exact h
    | cons second names =>
      unfold follow at h ⊢
      cases hnext : fs.enter here name with
      | error fault =>
        rw [hnext] at h
        cases h
      | ok next =>
        rw [hnext] at h
        rw [enter_put hplace hnext]
        exact ih h

theorem locate_put (hplace : (fs.entry? place).any Entry.isDirectory = false) {path : String}
    {found : Option Location × Bool} (h : fs.locate path = .ok found) :
    (fs.put place (.file content)).locate path = .ok found := by
  unfold locate at h ⊢
  dsimp only at h ⊢
  split at h
  · cases h
  · rw [if_neg ‹_›]
    split at h
    · rename_i hfollow
      have hstart : (fs.put place (.file content)).workingDirectory = fs.workingDirectory := rfl
      rw [hstart, follow_put hplace hfollow]
      exact h
    · cases h

end

/-! ### The storage -/

/-- The place that a path leads to, if it leads to one. --/
def place? (fs : FileSystem) (path : String) : Option Location :=
  match fs.locate path with
  | .ok (place, _) => place
  | .error _ => none

/-- The places of file systems. --/
def places : Places FileSystem Location where
  entry? := entry?
  place? := place?

theorem write_eq_ok {path : String} {content : ByteArray} {after : FileSystem} (h : fs.write path content = .ok after) :
    places.Wrote fs after path content := by
  unfold write at h
  split at h
  · cases h
  · cases h
  · rename_i place slash hlocate
    split at h
    · cases h
    · rename_i hfile
      cases h
      have hplace : (fs.entry? place).any Entry.isDirectory = false := by
        simp only [Bool.or_eq_true, not_or] at hfile
        simpa using hfile.2
      refine ⟨place, ?_, ?_, entry?_put_self _ hplace, fun other => entry?_put_of_ne _⟩
      · simp only [places, place?, hlocate]
      · simp only [places, place?, locate_put hplace hlocate]

theorem run_write (fs : FileSystem) (path : String) (content : ByteArray) :
    (files.write path content).run fs =
      match fs.write path content with
      | .ok after => (Except.ok (), after)
      | .error fault => (Except.error fault, fs) := by
  unfold files
  simp only [StateT.run_bind, StateT.run_get, pure_bind]
  cases fs.write path content <;> rfl

/-- A file system that is a value. --/
def storage : Storage FileSystem Location where
  toPlaces := places
  files := files
  read_keeps _ _ := rfl
  write_fails := by
    intro path content before after fault h
    rw [run_write] at h
    split at h
    · cases h
    · cases h
      rfl
  write_puts := by
    intro path content before after h
    rw [run_write] at h
    split at h
    · rename_i hwrite
      cases h
      exact write_eq_ok hwrite
    · cases h

end FileSystem
end Overlay
